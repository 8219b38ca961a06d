import StackLattice.Proofs.Syntax.Reported
import StackLattice.Proofs.Text.Unseen

/-!
How faults of a text are worded. Whatever a message repeats of the text is quoted or part of a name, but for the
character of an escape that is not known.
-/

namespace StackLattice.Syntax

open Text (Lacks Unseen Input isAsciiDigit isAlphabetic)

variable {c : Char}

section Words

variable (h : Unseen c)

include h

theorem not_isNameChar : isNameChar c = false := by
  rw [isNameChar, h.alphanumeric, beq_false_of_ne (h.ne (by decide)), beq_false_of_ne (h.ne (by decide))]
  rfl

theorem TokenKind.describe_lacks {kind : TokenKind} (named : ∀ name, kind = .ident name → Lacks c name) :
    Lacks c kind.describe := by
  cases kind with
  | ident name => exact Text.lacks_append.mpr ⟨h.literal _ (by decide +kernel), named name rfl⟩
  | string value => exact Text.lacks_append.mpr ⟨h.literal _ (by decide +kernel), h.shown value⟩
  | int n => exact h.natural n
  | float x => exact Decimal.Layout.render_lacks h _ x
  | comma inserted => cases inserted <;> exact h.literal _ (by decide +kernel)
  | _ => exact h.literal _ (by decide +kernel)

/-- What may be missing is named by fixed words or by a token. -/
theorem Expected.describe_lacks {wanted : Expected}
    (closing : ∀ close, wanted = .closing close ∨ wanted = .separatorOr close → Lacks c close.describe) :
    Lacks c wanted.describe := by
  cases wanted with
  | closing close => exact closing close (.inl rfl)
  | separatorOr close => exact Text.lacks_append.mpr ⟨h.literal _ (by decide +kernel), closing close (.inr rfl)⟩
  | _ => exact h.literal _ (by decide +kernel)

/-- Only tokens that are named, and the character of an escape, stand in a message as they are. -/
theorem Fault.message_lacks {fault : Fault} (escaped : fault ≠ .unknownEscape c)
    (tokens : ∀ wanted found, fault = .unexpected wanted found → Lacks c wanted.describe ∧ Lacks c found.describe) :
    Lacks c fault.message := by
  cases fault with
  | unexpectedCharacter d => exact Text.lacks_append.mpr ⟨h.literal _ (by decide +kernel), h.shownChar d⟩
  | unknownEscape d =>
    refine Text.lacks_append.mpr ⟨h.literal _ (by decide +kernel), Text.lacks_singleton.mpr ?_⟩
    rintro rfl
    exact escaped rfl
  | unexpected wanted found =>
    obtain ⟨first, second⟩ := tokens wanted found rfl
    show Lacks c ("expected " ++ wanted.describe ++ ", found " ++ found.describe)
    simp only [Text.lacks_append]
    exact ⟨⟨⟨h.literal _ (by decide +kernel), first⟩, h.literal _ (by decide +kernel)⟩, second⟩
  | tooDeep =>
    show Lacks c ("nesting too deep (more than " ++ toString nestingLimit ++ " levels)")
    simp only [Text.lacks_append]
    exact ⟨⟨h.literal _ (by decide +kernel), h.natural _⟩, h.literal _ (by decide +kernel)⟩
  | _ => exact h.literal _ (by decide +kernel)

omit h in
theorem Fault.not_lacks_unknownEscape : ¬Lacks c (Fault.unknownEscape c).message := by
  show ¬Lacks c ("unknown escape sequence \\" ++ String.singleton c)
  rw [Text.lacks_append, Text.lacks_singleton]
  exact fun both => both.2 rfl

end Words

section Tokens

def TokenKind.Clear (c : Char) (kind : TokenKind) : Prop := ∀ name, kind = .ident name → Lacks c name

theorem nameToken_clear {name : String} (lacks : Lacks c name) : (nameToken name).Clear c := by
  intro other same
  unfold nameToken at same
  split_ifs at same
  cases same
  exact lacks

variable (h : Unseen c)

include h

theorem name_clear {i left : Input} {kind : TokenKind} (read : name i = (.ok kind, left)) : kind.Clear c := by
  have body (cs : List Char) : c ∉ cs.takeWhile isNameChar := by
    intro member
    have := List.all_eq_true.mp List.all_takeWhile c member
    rw [not_isNameChar h] at this
    cases this
  unfold name at read
  split at read
  · split at read <;> cases read
    refine nameToken_clear (Text.lacks_ofList.mpr ?_)
    rw [List.mem_cons, not_or]
    exact ⟨h.ne (by decide), body _⟩
  · cases read
  · cases read
    exact nameToken_clear (Text.lacks_ofList.mpr (body _))

theorem lexeme_clear {i left : Input} {kind : TokenKind} (read : lexeme i = (.ok kind, left)) : kind.Clear c := by
  intro other same
  unfold lexeme at read
  dsimp only at read
  split at read <;> try (cases read; cases same)
  · cases body : (blockString i).1 <;> rw [body] at read <;> cases read
    cases same
  · cases body : (stringBody i.offset i.skip).1 <;> rw [body] at read <;> cases read
    cases same
  · split_ifs at read
    · unfold number at read
      dsimp only at read
      split at read <;> split at read <;> cases read <;> cases same
    · exact name_clear h read other same
    · cases read

theorem next_clear {s t : Scanner} {token : Token} (read : s.next = (.ok token, t)) : token.kind.Clear c := by
  fun_induction Scanner.next s with
  | case1 s rest pending | case2 s rest pending | case3 s _ rest pending =>
    cases read
    exact fun name is => by cases is
  | case4 s _ rest pending ih | case5 s _ rest ih | case6 s _ _ _ _ _ _ ih => exact ih read
  | case7 s _ _ _ _ _ _ =>
    unfold Scanner.readToken at read
    split at read
    · cases read
    · rename_i kind left lexed
      cases read
      exact lexeme_clear h lexed

theorem tokens_clear {s t : Scanner} {tokens : List Token} (read : s.tokens = (.ok tokens, t)) :
    ∀ token ∈ tokens, token.kind.Clear c := by
  fun_induction Scanner.tokens s generalizing t tokens with
  | case1 s e t' next => cases read
  | case2 s token t' next eof =>
    cases read
    simpa using next_clear h next
  | case3 s token t' next more rest last others ih =>
    cases rest with
    | error e => cases read
    | ok tokens =>
      cases read
      rw [List.forall_mem_cons]
      exact ⟨next_clear h next, ih others⟩

end Tokens

/-- What is reported of a clear token is worded without the character. -/
theorem Fault.Of.message_lacks (h : Unseen c) {kind : TokenKind} {fault : Fault} (of : fault.Of kind)
    (clear : kind.Clear c) : Lacks c fault.message := by
  cases of with
  | @unexpected wanted fixed =>
    refine Fault.message_lacks h (by simp) fun _ _ same => ?_
    cases same
    refine ⟨Expected.describe_lacks h fun close named => TokenKind.describe_lacks h fun name is => ?_,
      TokenKind.describe_lacks h clear⟩
    rcases named with rfl | rfl <;> exact absurd is (fixed name)
  | _ => exact Fault.message_lacks h (by simp) (by simp)

/-- A text is faulty in its characters, or in its tokens, which are clear. -/
theorem located_of_read (h : Unseen c) {path text : String} {revision : Revision} {keep : Bool} {e : SyntaxError}
    (read : ParsedFile.read path text revision keep = .error e) :
    ∃ located, e = Located.within located ⟨path, text⟩ ∧
      (located.fault.InCharacters ∨ Lacks c located.fault.message) := by
  obtain ⟨located, rfl, found | ⟨tokens, scanner, scanned, token, member, _, of⟩⟩ :=
    File.located_of_ofSource (ParsedFile.read_eq_error.mp read)
  · exact ⟨located, rfl, .inl found.characters⟩
  · exact ⟨located, rfl, .inr (of.message_lacks h (tokens_clear h scanned token member))⟩

/-- The message for a text that is faulty is without the character, unless it is the one of an escape. -/
theorem lacks_message_iff_of_read (h : Unseen c) {path text : String} {revision : Revision} {keep : Bool}
    {e : SyntaxError} (read : ParsedFile.read path text revision keep = .error e) :
    Lacks c e.message ↔ e.fault ≠ .unknownEscape c := by
  obtain ⟨located, rfl, fault⟩ := located_of_read h read
  constructor
  · intro lacks escaped
    rw [SyntaxError.message, escaped] at lacks
    exact Fault.not_lacks_unknownEscape lacks
  · intro escaped
    rcases fault with characters | lacks
    · refine Fault.message_lacks h escaped fun wanted found same => ?_
      rw [show located.fault = .unexpected wanted found from same] at characters
      exact characters.elim
    · exact lacks

end StackLattice.Syntax
