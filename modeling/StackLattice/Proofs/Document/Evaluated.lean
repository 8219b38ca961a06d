import StackLattice.Proofs.Document.Derived
import StackLattice.Proofs.Evaluation.Denotation
import StackLattice.Proofs.Evaluation.Mentions

/-!
What the expression of a document comes to: the document as a value. The fields of an object inside an object stand in
the block of the outer one, and those of an object in a list in a block of their own.
-/

namespace StackLattice.Document

open Evaluation
open Syntax (Decl Expr ParsedFile)

mutual

def value (position : Position) : Document → Value
  | null => .null
  | bool b => .bool b
  | int i => .int i
  | float x => .float x
  | string s => .string s
  | list items => .list (values position items)
  | object entries => .struct (fields position entries)

def values (position : Position) : List Document → List Value
  | [] => []
  | d :: ds => d.value position :: values position ds

def fields (position : Position) : List (String × Document) → List (Field Value)
  | [] => []
  | (key, d) :: ds => ⟨key, .regular, false, some position, d.value position⟩ :: fields position ds

end

def field (position : Position) (e : String × Document) : Field Value :=
  ⟨e.1, .regular, false, some position, e.2.value position⟩

theorem values_eq_map (position : Position) (items : List Document) :
    values position items = items.map (value position) := by
  induction items with
  | nil => rfl
  | cons d ds ih => rw [values, ih, List.map_cons]

theorem fields_eq_map (position : Position) (entries : List (String × Document)) :
    fields position entries = entries.map (field position) := by
  induction entries with
  | nil => rfl
  | cons e entries ih => rw [fields, ih, List.map_cons, field]

section Export

variable {n : Nat} {position : Position}

theorem documentItems_values {items : List Document} {depth : Nat}
    (each : ∀ d ∈ items, ∀ path place, (d.value position).documentAt path place (depth + 1) = .ok d) (index : Nat)
    (path : String) (place : Option Position) :
    Value.documentItems (values position items) index path place depth = .ok items := by
  induction items generalizing index with
  | nil => rw [values, Value.documentItems]
  | cons d ds ih =>
    rw [List.forall_mem_cons] at each
    rw [values, Value.documentItems, each.1, ih each.2]
    rfl

theorem documentFields_fields {entries : List (String × Document)} {depth : Nat}
    (each : ∀ e ∈ entries, ∀ path place, (e.2.value position).documentAt path place (depth + 1) = .ok e.2)
    (path : String) (place : Option Position) :
    Value.documentFields (fields position entries) path place depth = .ok entries := by
  induction entries with
  | nil => rw [fields, Value.documentFields]
  | cons e entries ih =>
    rw [List.forall_mem_cons] at each
    have exported : (field position e).isExported = true := rfl
    rw [fields_eq_map, List.map_cons, Value.documentFields, if_pos exported, ← fields_eq_map, ih each.2]
    show (do let d ← (e.2.value position).documentAt _ _ _; _) = _
    rw [each.1]
    rfl

/-- The value is exported as the document. -/
theorem Plain.documentAt {d : Document} (h : Plain n d) {depth : Nat} (enough : depth + n ≤ evaluationLimit)
    (path : String) (place : Option Position) : (d.value position).documentAt path place depth = .ok d := by
  induction h generalizing depth path place with
  | null | bool | int | string =>
    rw [value, Value.documentAt, if_neg (by omega)]
  | @list n items _ each =>
    rw [value, Value.documentAt, if_neg (by omega),
      documentItems_values fun d member path place => each d member (by omega) path place]
    rfl
  | @object n entries _ _ _ each =>
    rw [value, Value.documentAt, if_neg (by omega),
      documentFields_fields fun e member path place => each e member (by omega) path place]
    rfl

end Export

/-- Whether the document has entries, which are mentioned in the block that it stands in. -/
def isObject : Document → Bool
  | object _ => true
  | _ => false

theorem eq_object {d : Document} (h : d.isObject = true) : ∃ entries, d = object entries := by
  cases d with
  | object entries => exact ⟨entries, rfl⟩
  | _ => cases h

section Mentions

variable (file : ParsedFile)

theorem valueMentions_expr {d : Document} (other : d.isObject = false) (trail : Trail) (key : String) :
    valueMentions trail key file d.expr = [(trail, .conjunct key d.expr file)] := by
  cases d with
  | object entries => cases other
  | int i =>
    rw [expr]
    split <;> rw [valueMentions] <;> simp
  | _ => rw [expr, valueMentions] <;> simp

theorem embedMentions_expr {d : Document} (other : d.isObject = false) (trail : Trail) :
    embedMentions trail file d.expr = [(trail, .embed d.expr file)] := by
  cases d with
  | object entries => cases other
  | int i =>
    rw [expr]
    split <;> rw [embedMentions] <;> simp
  | _ => rw [expr, embedMentions] <;> simp

def mention (e : String × Document) : Mention :=
  if e.2.isObject then .literal e.1 else .conjunct e.1 e.2.expr file

def mentions (e : String × Document) : List Mention := [.label ⟨e.1, .regular, default⟩ false file, mention file e]

def declared (e : String × Document) : Declared where
  label := e.1
  kind := .regular
  optional := false
  position := file.source.position default
  conjuncts := if e.2.isObject then [] else [⟨e.2.expr, file⟩]
  opened := e.2.isObject

/-- What an object inside an entry says. -/
def inside (trail : Trail) (e : String × Document) : List (Trail × Mention) :=
  match e.2 with
  | object entries => declsMentions (e.1 :: trail) file (decls entries)
  | _ => []

theorem declMentions_decl (trail : Trail) (e : String × Document) :
    declMentions trail file (decl e) = (mentions file e).map (trail, ·) ++ inside file trail e := by
  obtain ⟨key, d⟩ := e
  rw [decl, declMentions]
  cases d with
  | object entries => rw [expr, valueMentions]; rfl
  | _ => rw [valueMentions_expr file rfl]; rfl

theorem suffix_inside {trail : Trail} {e : String × Document} {m : Trail × Mention} (h : m ∈ inside file trail e) :
    e.1 :: trail <:+ m.1 := by
  rw [inside] at h
  split at h
  · exact (suffix_mentions file).1 _ _ m h
  · cases h

theorem mentionsAt_own (trail : Trail) (ms : List Mention) : mentionsAt trail (ms.map (trail, ·)) = ms := by
  induction ms with
  | nil => rfl
  | cons m ms ih => rw [List.map_cons, mentionsAt_cons_self, ih]

theorem mentionsAt_own_of_ne {trail other : Trail} (h : trail ≠ other) (ms : List Mention) :
    mentionsAt other (ms.map (trail, ·)) = [] := by
  simp [mentionsAt, h]

theorem mentionsAt_inside_here (trail : Trail) (e : String × Document) : mentionsAt trail (inside file trail e) = [] := by
  refine mentionsAt_eq_nil fun m member same => ?_
  have longer := (suffix_inside file member).length_le
  rw [same, List.length_cons] at longer
  omega

theorem mentionsAt_inside_of_ne {trail : Trail} {e : String × Document} {key : String} (other : e.1 ≠ key) (t : Trail) :
    mentionsAt (t ++ key :: trail) (inside file trail e) = [] := by
  refine mentionsAt_eq_nil fun m member same => ?_
  have suffix := suffix_inside file member
  rw [same] at suffix
  have equal := (List.suffix_of_suffix_length_le suffix (List.suffix_append t (key :: trail)) (Nat.le_refl _)).eq_of_length
    rfl
  exact other (List.cons.inj equal).1

/-- What entries say of the body they stand in. -/
theorem mentionsAt_entries (trail : Trail) (entries : List (String × Document)) :
    mentionsAt trail (declsMentions trail file (decls entries)) = entries.flatMap (mentions file) := by
  rw [decls_eq_map]
  induction entries with
  | nil => rfl
  | cons e entries ih =>
    rw [List.map_cons, declsMentions, declMentions_decl, mentionsAt_append, mentionsAt_append, mentionsAt_own,
      mentionsAt_inside_here, List.append_nil, ih, List.flatMap_cons]

/-- What entries say of the body of one of them is what the object inside it says. -/
theorem mentionsAt_entry {entries : List (String × Document)} (distinct : (entries.map (·.1)).Nodup) {key : String}
    {es : List (String × Document)} (member : (key, object es) ∈ entries) (trail t : Trail) :
    mentionsAt (t ++ key :: trail) (declsMentions trail file (decls entries)) =
      mentionsAt (t ++ key :: trail) (declsMentions (key :: trail) file (decls es)) := by
  have apart : trail ≠ t ++ key :: trail := fun same => by
    have length := congrArg List.length same
    simp at length
    omega
  -- Entries of other keys say nothing of the body of this one, nor of the bodies inside it.
  have others {rest : List (String × Document)} (apart' : ∀ e ∈ rest, e.1 ≠ key) :
      mentionsAt (t ++ key :: trail) (declsMentions trail file (rest.map decl)) = [] := by
    induction rest with
    | nil => rfl
    | cons e rest ih =>
      obtain ⟨first, later⟩ := List.forall_mem_cons.mp apart'
      rw [List.map_cons, declsMentions, declMentions_decl, mentionsAt_append, mentionsAt_append,
        mentionsAt_own_of_ne apart, mentionsAt_inside_of_ne file first, ih later]
      rfl
  rw [decls_eq_map entries]
  induction entries with
  | nil => cases member
  | cons e entries ih =>
    rw [List.map_cons, List.nodup_cons] at distinct
    rw [List.map_cons, declsMentions, declMentions_decl, mentionsAt_append, mentionsAt_append, mentionsAt_own_of_ne apart,
      List.nil_append]
    rcases List.mem_cons.mp member with rfl | later
    · rw [others fun e member same => distinct.1 (List.mem_map.mpr ⟨e, member, same⟩), List.append_nil]
      rfl
    · have first : e.1 ≠ key := fun same => distinct.1 (same ▸ List.mem_map_of_mem later)
      rw [mentionsAt_inside_of_ne file first, List.nil_append]
      exact ih distinct.2 later

theorem update_last {ds : List Declared} {d : Declared} {key : String} (same : d.label = key)
    (absent : key ∉ ds.map (·.label)) (f : Declared → Declared) : Declared.update (ds ++ [d]) key f = ds ++ [f d] := by
  have kept : Declared.update ds key f = ds := Declared.update_eq_self fun other member same =>
    absurd (List.mem_map.mpr ⟨other, member, same⟩) absent
  rw [Declared.update] at kept
  rw [Declared.update, List.map_append, kept]
  simp [same]

theorem foldl_mention {ds : List Declared} (e : String × Document) (absent : e.1 ∉ ds.map (·.label)) :
    (mentions file e).foldl Mention.apply ds = ds ++ [declared file e] := by
  have missing : ¬(Declared.find? ds e.1).isSome = true := by
    rw [Option.not_isSome_iff_eq_none]
    exact Declared.find?_eq_none.mpr absent
  rw [mentions, List.foldl_cons, List.foldl_cons, List.foldl_nil, Mention.apply, if_neg missing, mention]
  cases object : e.2.isObject with
  | true =>
    refine (update_last ?_ absent _).trans ?_
    · rfl
    · rw [declared, object]
      rfl
  | false =>
    refine (update_last ?_ absent _).trans ?_
    · rfl
    · rw [declared, object]
      rfl

/-- What entries say, one after the other, is what is declared for them. -/
theorem foldl_mentions {entries : List (String × Document)} {ds : List Declared}
    (distinct : (ds.map (·.label) ++ entries.map (·.1)).Nodup) :
    (entries.flatMap (mentions file)).foldl Mention.apply ds = ds ++ entries.map (declared file) := by
  induction entries generalizing ds with
  | nil => simp
  | cons e entries ih =>
    have absent : e.1 ∉ ds.map (·.label) := fun member =>
      (List.nodup_append.mp distinct).2.2 _ member _ List.mem_cons_self rfl
    rw [List.flatMap_cons, List.foldl_append, foldl_mention file e absent, ih (by simpa [declared] using distinct)]
    simp

/-- In a block, the entries of an object are what is said of a body and of the bodies inside. -/
def Hosts (b : Block) (trail : Trail) (entries : List (String × Document)) : Prop :=
  ∀ t, b.mentionsAt (t ++ trail) = mentionsAt (t ++ trail) (declsMentions trail file (decls entries))

namespace Hosts

variable {file} {b : Block} {trail : Trail} {entries : List (String × Document)}

theorem here (h : Hosts file b trail entries) : b.mentionsAt trail = entries.flatMap (mentions file) :=
  (h []).trans (mentionsAt_entries file trail entries)

theorem inner (h : Hosts file b trail entries) (distinct : (entries.map (·.1)).Nodup) {key : String}
    {es : List (String × Document)} (member : (key, object es) ∈ entries) : Hosts file b (key :: trail) es := by
  intro t
  have whole := h (t ++ [key])
  rw [List.append_assoc, List.singleton_append] at whole
  rw [whole, mentionsAt_entry file distinct member]

theorem declared (h : Hosts file b trail entries) (distinct : (entries.map (·.1)).Nodup) :
    b.declared trail = entries.map (declared file) := by
  rw [Block.declared, h.here, foldl_mentions file (by simpa using distinct), List.nil_append]

theorem embeds (h : Hosts file b trail entries) : b.embeds trail = [] := by
  have none (e : String × Document) : (mentions file e).filterMap Mention.embed? = [] := by
    rw [mentions, mention]
    cases e.2.isObject <;> rfl
  rw [Block.embeds, h.here, List.filterMap_flatMap]
  simp [none]

end Hosts

end Mentions

section Meanings

open Closure (Site meaning)

theorem mapM_of_ok {α β : Type} {f : α → Meaning β} {g : α → β} {xs : List α}
    (each : ∀ x ∈ xs, f x = some (.ok (g x))) : xs.mapM f = (some (.ok (xs.map g)) : Option _) := by
  induction xs with
  | nil => rfl
  | cons x xs ih =>
    rw [List.forall_mem_cons] at each
    rw [List.mapM_cons, Meaning.bind_of_ok each.1, Meaning.bind_of_ok (ih each.2)]
    rfl

theorem unifyAt_top (path : String) (position : Option Position) (v : Value) :
    Closure.unifyAt path position .top v = some (.ok v) := by
  rw [Closure.unifyAt, Value.unify]
  rfl

/-- With so many levels the expression of a document comes to its value, and so does a body for an object. -/
structure Means (least : Nat) (d : Document) : Prop where
  expr {fuel : Nat} (enough : least < fuel) (site : Site) :
    meaning fuel (.expr d.expr site) = some (.ok (d.value (site.file.source.position default)))
  body {entries : List (String × Document)} (is : d = object entries) {fuel : Nat} (enough : least ≤ fuel)
    {file : ParsedFile} {b : Block} {trail : Trail} (hosts : Hosts file b trail entries) (rest : Env) :
    meaning fuel (.body (⟨b, trail⟩ :: rest)) = some (.ok (d.value (file.source.position default)))

theorem find?_declared {file : ParsedFile} {entries : List (String × Document)} (distinct : (entries.map (·.1)).Nodup)
    {e : String × Document} (member : e ∈ entries) :
    Declared.find? (entries.map (declared file)) e.1 = some (declared file e) := by
  have labels : ((entries.map (declared file)).map (·.label)).Nodup := by simpa [Function.comp_def, declared] using distinct
  have found : (Declared.find? (entries.map (declared file)) e.1).isSome = true := by
    rw [Option.isSome_iff_ne_none, ne_eq, Declared.find?_eq_none]
    simpa [declared] using ⟨e.2, member⟩
  obtain ⟨d, found⟩ := Option.isSome_iff_exists.mp found
  rw [found, Declared.eq_of_find? labels found (List.mem_map_of_mem member) rfl]

/-- What is declared for an entry comes to its document. -/
theorem fieldValue_entry {file : ParsedFile} {b : Block} {trail : Trail} {rest : Env} {least fuel : Nat}
    {entries : List (String × Document)} (distinct : (entries.map (·.1)).Nodup) (hosts : Hosts file b trail entries)
    {e : String × Document} (member : e ∈ entries) (means : Means least e.2) (enough : least < fuel) :
    Closure.fieldValue (meaning fuel) (⟨b, trail⟩ :: rest) e.1 =
      some (.ok (e.2.value (file.source.position default))) := by
  have found : Env.find? (⟨b, trail⟩ :: rest) e.1 = some (declared file e) := by
    rw [Env.find?, Env.declared, hosts.declared distinct, find?_declared distinct member]
  obtain ⟨key, d⟩ := e
  rw [Closure.fieldValue, found]
  cases literal : d.isObject with
  | true =>
    obtain ⟨es, rfl⟩ := eq_object literal
    have inner := means.body rfl (Nat.le_of_lt enough) (hosts.inner distinct member) rest
    have conjuncts : (declared file (key, object es)).conjuncts = [] := rfl
    have opened : (declared file (key, object es)).opened = true := rfl
    simp only [conjuncts, Closure.conjoinAll, pure_bind, opened, if_true]
    exact (Meaning.bind_of_ok inner).trans (unifyAt_top _ _ _)
  | false =>
    have conjuncts : (declared file (key, d)).conjuncts = [⟨d.expr, file⟩] := by simp [declared, literal]
    have opened : (declared file (key, d)).opened = false := literal
    simp only [conjuncts, Closure.conjoinAll, opened, bind_assoc]
    rw [Meaning.bind_of_ok (means.expr enough _), Meaning.bind_of_ok (unifyAt_top _ _ _)]
    rfl

namespace Means

variable {least : Nat}

theorem leaf {d : Document} (other : d.isObject = false)
    (here : ∀ fuel, ∀ site : Site, meaning (fuel + 1) (.expr d.expr site) =
      some (.ok (d.value (site.file.source.position default)))) : Means least d := by
  refine ⟨fun {fuel} enough site => ?_, fun is => ?_⟩
  · obtain ⟨fuel, rfl⟩ := Nat.exists_eq_succ_of_ne_zero (Nat.ne_zero_of_lt enough)
    exact here fuel site
  · rw [is] at other
    cases other

theorem int (i : Int) : Means (least + 1) (.int i) := by
  refine ⟨fun {fuel} enough site => ?_, fun is => nomatch is⟩
  obtain ⟨fuel, rfl⟩ : ∃ k, fuel = k + 2 := ⟨fuel - 2, by omega⟩
  have magnitude (levels : Nat) :
      meaning (levels + 1) (.expr (.int i.natAbs default) site) = some (.ok (.int i.natAbs)) := rfl
  rw [Document.expr]
  split
  · rename_i negative
    -- Only the least integer has no negation, and a magnitude is not negative.
    have negated : negate (.int i.natAbs) = some (.int i) := by
      rw [negate, if_neg (by omega)]
      congr 2
      omega
    refine (Meaning.bind_of_ok (magnitude fuel)).trans ?_
    rw [negated]
    rfl
  · rename_i positive
    rw [magnitude, value, Int.natAbs_of_nonneg (Int.not_lt.mp positive)]

theorem list {items : List Document} (each : ∀ d ∈ items, Means least d) : Means (least + 2) (.list items) := by
  refine ⟨fun {fuel} enough site => ?_, fun is => nomatch is⟩
  obtain ⟨fuel, rfl⟩ := Nat.exists_eq_succ_of_ne_zero (Nat.ne_zero_of_lt enough)
  have inside : (items.map Document.expr).mapM (fun part => meaning fuel (.expr part site)) =
      (some (.ok (items.map (value (site.file.source.position default)))) : Option _) := by
    rw [List.mapM_map]
    exact mapM_of_ok fun d member => (each d member).expr (by omega) site
  rw [Document.expr, exprs_eq_map, value, values_eq_map]
  exact (Meaning.bind_of_ok inside).trans rfl

/-- A body that says what an object says comes to the object. -/
theorem meaning_body {entries : List (String × Document)} (distinct : (entries.map (·.1)).Nodup)
    (each : ∀ e ∈ entries, Means least e.2) {fuel : Nat} (enough : least + 2 ≤ fuel) {file : ParsedFile} {b : Block}
    {trail : Trail} (hosts : Hosts file b trail entries) (rest : Env) :
    meaning fuel (.body (⟨b, trail⟩ :: rest)) =
      some (.ok ((Document.object entries).value (file.source.position default))) := by
  obtain ⟨fuel, rfl⟩ : ∃ k, fuel = k + 1 := ⟨fuel - 1, by omega⟩
  have fields : Closure.bodyFields ⟨meaning fuel, Closure.fieldValue (meaning fuel)⟩ (⟨b, trail⟩ :: rest)
      (entries.map (declared file)) = some (.ok (entries.map (field (file.source.position default)))) := by
    rw [bodyFields_eq_mapM, List.mapM_map]
    refine mapM_of_ok fun e member => ?_
    exact (Meaning.bind_of_ok (fieldValue_entry distinct hosts member (each e member) (by omega))).trans rfl
  have declared : Env.declared (⟨b, trail⟩ :: rest) = _ := hosts.declared distinct
  have embeds : Env.embeds (⟨b, trail⟩ :: rest) = [] := hosts.embeds
  rw [meaning, Closure.perform, Closure.bodyValue, declared, embeds, Meaning.bind_of_ok fields, value, fields_eq_map]
  rfl

theorem object {entries : List (String × Document)} (distinct : (entries.map (·.1)).Nodup)
    (each : ∀ e ∈ entries, Means least e.2) : Means (least + 2) (.object entries) := by
  refine ⟨fun {fuel} enough site => ?_, fun is => ?_⟩
  · obtain ⟨fuel, rfl⟩ := Nat.exists_eq_succ_of_ne_zero (Nat.ne_zero_of_lt enough)
    -- The struct opens a block that says nothing but what the object says.
    have hosts : Hosts site.file ⟨site.path, declsMentions [] site.file (decls entries)⟩ [] entries := fun t => rfl
    exact meaning_body distinct each (by omega) hosts site.env
  · cases is
    exact meaning_body distinct each

end Means

/-- An object takes one level for the struct and one for its body. -/
theorem Plain.means {n : Nat} {d : Document} (h : Plain n d) : Means (2 * n + 1) d := by
  induction h with
  | null | bool | string => exact .leaf rfl fun _ _ => rfl
  | @int _ i _ => exact .int i
  | list _ each => exact .list each
  | object distinct _ _ each => exact .object distinct each

end Meanings

end StackLattice.Document
