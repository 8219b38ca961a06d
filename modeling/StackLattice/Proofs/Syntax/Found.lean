import StackLattice.Proofs.Syntax.Gaps

/-!
Where faults of characters are found. Whatever a scanner refuses it points at a place of the text that it has reached,
between two characters, also inside literals and behind the indentation of their lines.
-/

namespace StackLattice.Syntax

open Text (Input isBlank byteLength Boundary)
open Text.Input (Passes Reaches)

/-- Whether a fault is one that is found in characters, not in tokens. -/
def Fault.InCharacters : Fault → Prop
  | unexpected _ _ => False
  | _ => True

/-- A fault of characters that are left of a text, in front of one of them or behind the last. -/
structure Located.FoundIn (i : Input) (e : Located) : Prop where
  characters : e.fault.InCharacters
  place : ∃ passed, passed <+: i.rest ∧ e.span.start = i.offset + byteLength passed

namespace Located.FoundIn

variable {i j : Input} {e : Located}

theorem here {fault : Fault} {span : Span} (characters : fault.InCharacters) (start : span.start = i.offset) :
    FoundIn i ⟨fault, span⟩ := ⟨characters, [], List.nil_prefix, start⟩

theorem behind (h : FoundIn j e) (within : Reaches i j) : FoundIn i e := by
  obtain ⟨characters, passed, ⟨rest, whole⟩, start⟩ := h
  obtain ⟨before, passes⟩ := within
  refine ⟨characters, before ++ passed, ⟨rest, ?_⟩, ?_⟩
  · rw [List.append_assoc, whole, passes.rest]
  · rw [start, passes.offset, Text.byteLength_append, Nat.add_assoc]

/-- What is found in a line is found in the text that starts with it. -/
theorem longer {line : List Char} (h : FoundIn ⟨line, i.offset⟩ e) (starts : line <+: i.rest) : FoundIn i e := by
  obtain ⟨characters, passed, inside, start⟩ := h
  exact ⟨characters, passed, inside.trans starts, start⟩

theorem boundary {text : List Char} (within : Reaches ⟨text, 0⟩ i) (h : FoundIn i e) : Boundary text e.span.start := by
  obtain ⟨_, passed, ⟨rest, whole⟩, start⟩ := h.behind within
  exact ⟨passed, rest, whole.symm, by rw [start, Nat.zero_add]⟩

end Located.FoundIn

section Literals

variable {i k : Input} {e : Located}

theorem escape_inCharacters {cs : List Char} {fault : Fault} (h : escape cs = .error fault) : fault.InCharacters := by
  unfold escape at h
  split at h
  · cases h; trivial
  · split at h
    · cases h; trivial
    · split at h <;> cases h
      trivial
  · cases h; trivial
  · split at h <;> cases h
    trivial

theorem lineEscape_inCharacters {cs : List Char} {fault : Fault} (h : lineEscape cs = .error fault) :
    fault.InCharacters := by
  unfold lineEscape at h
  split at h
  · split at h <;> cases h <;> trivial
  · exact escape_inCharacters h

theorem map_eq_error {ε α β : Type} {f : α → β} {r : Except ε α} {e : ε} (h : r.map f = .error e) : r = .error e := by
  cases r <;> cases h
  rfl

/-- A literal on one line is refused at its opening quote, or at one of its backslashes. -/
theorem stringBody_found (within : Reaches k i) (h : (stringBody k.offset i).1 = .error e) : e.FoundIn k := by
  fun_induction stringBody k.offset i with
  | case1 | case2 =>
    cases h
    exact .here trivial rfl
  | case3 => cases h
  | case4 i rest here fault bad =>
    cases h
    exact .behind (.here (lineEscape_inCharacters bad) rfl) within
  | case5 i rest here d taken escaped tail left body ih =>
    rw [body] at ih
    exact ih (within.trans (Input.reaches_skipMany _ i)) (map_eq_error h)
  | case6 i d rest _ _ _ here tail left body ih =>
    rw [body] at ih
    exact ih (within.trans (Input.reaches_skip i)) (map_eq_error h)

theorem unescape_found {offset : Nat} {cs : List Char} (h : unescape offset cs = .error e) :
    e.FoundIn ⟨cs, offset⟩ := by
  fun_induction unescape offset cs with
  | case1 => cases h
  | case2 offset rest fault bad =>
    cases h
    exact .here (escape_inCharacters bad) rfl
  | case3 offset rest d taken escaped ih =>
    cases tail : unescape (offset + 1 + byteLength (rest.take taken)) (rest.drop taken) with
    | ok cs =>
      rw [tail] at h
      cases h
    | error e' =>
      rw [tail] at h ih
      cases h
      refine (ih rfl).behind ⟨'\\' :: rest.take taken, ?_, ?_⟩
      · simp
      · rw [Text.byteLength_cons, ← Nat.add_assoc]
        rfl
  | case4 offset d rest other ih =>
    cases tail : unescape (offset + d.utf8Size) rest with
    | ok cs =>
      rw [tail] at h
      cases h
    | error e' =>
      rw [tail] at h ih
      cases h
      exact (ih rfl).behind ⟨[d], rfl, rfl⟩

/-- A line of a text that is left, or the start of one. -/
def Line.StandsIn (k : Input) (l : Line) : Prop := ∃ j, Reaches k j ∧ l.offset = j.offset ∧ l.text <+: j.rest

theorem dedent_found {indent : List Char} {l : Line} (stands : l.StandsIn k) (h : l.dedent indent = .error e) :
    e.FoundIn k := by
  obtain ⟨offset, text⟩ := l
  obtain ⟨j, within, rfl, starts⟩ := stands
  have inLine (found : e.FoundIn ⟨text, j.offset⟩) : e.FoundIn k := (found.longer starts).behind within
  unfold Line.dedent at h
  split_ifs at h with blank indented
  · obtain ⟨body, whole⟩ := List.isPrefixOf_iff_prefix.mp indented
    change indent ++ body = text at whole
    subst whole
    rw [List.drop_left] at h
    exact inLine ((unescape_found h).behind ⟨indent, rfl, rfl⟩)
  · cases h
    exact inLine (.here trivial rfl)

theorem dedentAll_found {indent : List Char} {lines : List Line} (stand : ∀ l ∈ lines, l.StandsIn k)
    (h : lines.mapM (Line.dedent indent) = .error e) : e.FoundIn k := by
  induction lines with
  | nil => cases h
  | cons l lines ih =>
    rw [List.forall_mem_cons] at stand
    rw [List.mapM_cons] at h
    cases first : l.dedent indent with
    | error e' =>
      rw [first] at h
      cases h
      exact dedent_found stand.1 first
    | ok text =>
      rw [first] at h
      cases others : lines.mapM (Line.dedent indent) with
      | error e' =>
        rw [others] at h ih
        cases h
        exact ih stand.2 rfl
      | ok texts =>
        simp only [others] at h
        cases h

/-- Lines are looked for up to the end of the text, and those that are found stand in it. -/
theorem blockLines_found {lines : List Line} (within : Reaches k i) (stand : ∀ l ∈ lines, l.StandsIn k) :
    (∀ e, (blockLines k.offset i lines).1 = .error e → e.FoundIn k) ∧
      ∀ all indent, (blockLines k.offset i lines).1 = .ok (all, indent) → ∀ l ∈ all, l.StandsIn k := by
  fun_induction blockLines k.offset i lines with
  | case1 =>
    refine ⟨fun e h => ?_, fun _ _ impossible => by cases impossible⟩
    cases h
    exact .here trivial rfl
  | case2 =>
    refine ⟨fun e impossible => (by cases impossible), fun all indent h => ?_⟩
    cases h
    exact stand
  | case3 i lines d rest here line indent ih =>
    refine ih (within.trans (Input.reaches_skipMany _ i)) (List.forall_mem_cons.mpr ⟨?_, stand⟩)
    exact ⟨i, within, rfl, List.takeWhile_prefix _⟩

theorem blockString_found (h : (blockString i).1 = .error e) : e.FoundIn i := by
  have opened := (Input.reaches_skipMany 3 i).trans
    (Input.reaches_skipWhile (fun c => isBlank c && c != '\n') (i.skipMany 3))
  unfold blockString at h
  dsimp only at h
  generalize (i.skipMany 3).skipWhile (fun c => isBlank c && c != '\n') = before at opened h
  split at h
  · have found := blockLines_found (opened.trans (Input.reaches_skip before)) (List.forall_mem_nil _)
    split at h
    · rename_i read
      cases h
      exact found.1 e (congrArg Prod.fst read)
    · rename_i lines indent left read
      refine dedentAll_found (fun l member => ?_) (map_eq_error h)
      exact found.2 lines indent (congrArg Prod.fst read) l (List.mem_reverse.mp member)
  · cases h
    exact .here trivial rfl

end Literals

section Lexemes

variable {i : Input} {e : Located}

theorem number_found (h : (number i).1 = .error e) : e.FoundIn i := by
  unfold number at h
  dsimp only at h
  split at h <;> split at h <;> cases h <;> exact .here trivial rfl

theorem name_found (h : (name i).1 = .error e) : e.FoundIn i := by
  unfold name at h
  split at h
  · split at h <;> cases h
    exact .here trivial rfl
  · cases h
    exact .here trivial rfl
  · cases h

theorem lexeme_found (h : (lexeme i).1 = .error e) : e.FoundIn i := by
  unfold lexeme at h
  dsimp only at h
  split at h <;> try (cases h)
  · exact blockString_found (map_eq_error h)
  · exact stringBody_found (Input.reaches_skip i) (map_eq_error h)
  · split_ifs at h
    · exact number_found h
    · exact name_found h
    · cases h
      exact .here trivial rfl

end Lexemes

namespace Scanner

variable {s : Scanner} {e : Located}

/-- Scanning goes on in the text, behind a token or behind what is refused. -/
theorem reaches_next (s : Scanner) : Reaches s.input s.next.2.input := by
  fun_induction next s with
  | case1 | case2 => exact .refl _
  | case3 s => exact Input.reaches_skip s.input
  | case4 s _ _ _ ih => exact (Input.reaches_skip s.input).trans ih
  | case5 s _ _ ih => exact s.reaches_passComment.trans ih
  | case6 s _ _ _ _ _ _ ih => exact (Input.reaches_skip s.input).trans ih
  | case7 s =>
    have lexed := reaches_lexeme s.input
    unfold readToken
    split <;> rename_i read <;> rw [read] at lexed <;> exact lexed

theorem next_found (h : s.next.1 = .error e) : e.FoundIn s.input := by
  fun_induction next s with
  | case1 | case2 | case3 => cases h
  | case4 s _ _ _ ih => exact (ih h).behind (Input.reaches_skip s.input)
  | case5 s _ _ ih => exact (ih h).behind s.reaches_passComment
  | case6 s _ _ _ _ _ _ ih => exact (ih h).behind (Input.reaches_skip s.input)
  | case7 s =>
    unfold readToken at h
    split at h
    · rename_i read
      cases h
      exact lexeme_found (congrArg Prod.fst read)
    · cases h

theorem tokens_found (h : s.tokens.1 = .error e) : e.FoundIn s.input := by
  fun_induction Scanner.tokens s with
  | case1 s e' t read =>
    cases h
    exact next_found (congrArg Prod.fst read)
  | case2 => cases h
  | case3 s token t read more rest last others ih =>
    rw [others] at ih
    have passed := reaches_next s
    rw [read] at passed
    exact (ih (map_eq_error h)).behind passed

end Scanner

end StackLattice.Syntax
