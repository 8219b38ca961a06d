import StackLattice.Proofs.Evaluation.FileOrder
import StackLattice.Proofs.Evaluation.Intact
import StackLattice.Proofs.Evaluation.Standing

/-!
An expression as the value of a field and as the element of a list that is a field beside it, in any body that is
evaluated in the course of a run.
-/

namespace StackLattice.Evaluation

open Syntax (Expr Decl Label LabelKind ParsedFile)

variable {kinds : String → LabelKind}

/-- The bodies around an expression, down from those of a package through those of struct literals, if they are written
    without marks and with one kind for each label. -/
inductive Env.IsTame (kinds : String → LabelKind) (files : List ParsedFile) : Env → Prop
  | root (trail : Trail) (tame : ∀ file ∈ files, Decl.TameAll kinds file.tree.decls) :
    IsTame kinds files [⟨⟨"", files.flatMap fun file => declsMentions [] file file.tree.decls⟩, trail⟩]
  | literal {env : Env} (outer : IsTame kinds files env) (path : String) (file : ParsedFile) {decls : List Decl}
    (trail : Trail) (tame : Decl.TameAll kinds decls) :
    IsTame kinds files (⟨⟨path, declsMentions [] file decls⟩, trail⟩ :: env)

theorem Env.IsTame.alike {files : List ParsedFile} {env : Env} (h : env.IsTame kinds files) : env.Alike kinds env := by
  induction h with
  | root trail tame =>
    cases rootEnv_alike (.refl files) tame with
    | cons here _ => exact .cons ⟨rfl, here.2⟩ .nil
  | literal _ path file trail tame ih => exact .cons ⟨rfl, Block.rearranged_literal tame path path file⟩ ih

theorem lookup_of_remember {key : FieldKey} {compute : Eval Value} {s t : State} {v : Value}
    (h : remember key compute s = (.ok v, t)) : t.cache.lookup key = some (.ok v) := by
  cases found : s.cache.lookup key with
  | some r =>
    rw [remember_cached found] at h
    cases h
    exact found
  | none =>
    cases active : s.active.contains key with
    | true =>
      rw [remember_active found active] at h
      cases h
    | false =>
      rcases result : compute { s with active := key :: s.active } with ⟨r, u⟩
      rw [remember_fresh found active result] at h
      cases h
      exact List.lookup_cons_self

theorem lookup_of_bodyFields {levels : Nat} {id : ScopeId} {entries : List Entry} {s t : State}
    {fields : List (Field Value)} (h : bodyFields (remembering (evaluate levels)) id entries s = (.ok fields, t)) :
    ∀ entry ∈ entries, ∃ v, t.cache.lookup (id, entry.label) = some (.ok v) := by
  induction entries generalizing s fields with
  | nil => exact fun _ impossible => absurd impossible List.not_mem_nil
  | cons entry entries ih =>
    obtain ⟨v, u, first, h⟩ := bind_eq_ok h
    obtain ⟨rest, w, others, h⟩ := bind_eq_ok h
    cases h
    rw [List.forall_mem_cons]
    refine ⟨⟨v, ?_⟩, ih others⟩
    have kept := (((parts_kept intact levels).bodyFields id entries trivial).of_ok others).1
    exact kept.cache _ _ (lookup_of_remember first)

theorem lookup_of_bodyValue {levels : Nat} {id : ScopeId} {s t : State} {v : Value}
    (h : bodyValue (remembering (evaluate levels)) id s = (.ok v, t)) :
    ∀ entry ∈ (s.scopes.node id).entries, ∃ x, t.cache.lookup (id, entry.label) = some (.ok x) := by
  rw [bodyValue, bind_of_ok (get_run s)] at h
  obtain ⟨fields, u, found, embedded⟩ := bind_eq_ok h
  dsimp only at embedded
  intro entry member
  obtain ⟨x, there⟩ := lookup_of_bodyFields found entry member
  have kept := (((parts_kept intact levels).embedAll _ _ trivial trivial).of_ok embedded).1
  exact ⟨x, kept.cache _ _ there⟩

/-- After a body that has a value, each of its fields is remembered with one. -/
theorem lookup_of_body {levels : Nat} {id : ScopeId} {s t : State} {v : Value}
    (h : evaluate levels (.body id) s = (.ok v, t)) :
    ∀ entry ∈ (s.scopes.node id).entries, ∃ x, t.cache.lookup (id, entry.label) = some (.ok x) := by
  obtain ⟨n, u, rfl, result, rfl⟩ := perform_of_evaluate h
  rw [perform] at result
  have kept := lookup_of_bodyValue result
  exact kept

section Element

variable {files : List ParsedFile} {s t : State} {envs : List Env} {levels : Nat} {id : ScopeId} {b : Block}
  {here : Trail} {outer : Env} {file : ParsedFile} {a l : Label} {docs docs' : List Syntax.Comment}
  {span span' listSpan : Span} {e : Expr} {v : Value}

/-- A field that is said of in a body that has a value settles on the value that it is remembered with. -/
theorem exists_settled (reached : Remembers files.toArray 0 s envs) (level : s.depth + levels = evaluationLimit)
    (body : envs[id]? = some (⟨b, here⟩ :: outer)) (tame : Env.IsTame kinds files (⟨b, here⟩ :: outer))
    (evaluates : evaluate levels (.body id) s = (.ok v, t)) {name : String} {m : Mention}
    (said : m ∈ b.mentionsAt here) (about : m.about name = true) :
    ∃ x, t.cache.lookup (id, name) = some (.ok x) ∧
      Settles (fun n => Closure.fieldMeaning n (⟨b, here⟩ :: outer) name) (.ok x) := by
  have led := (rearranged_block tame.alike).led here name
  obtain ⟨d, declared⟩ := Option.isSome_iff_exists.mp ((isSome_iff_said led).mpr ⟨m, said, about⟩)
  have entries := described_find reached.described body name
  rw [show Env.find? (⟨b, here⟩ :: outer) name = some d from declared] at entries
  generalize found : s.scopes.entryOf? id name = entry at entries
  cases entries with
  | @some entry _ is =>
    have label : entry.label = name := by simpa using List.find?_some found
    obtain ⟨x, there⟩ := lookup_of_body evaluates entry (List.mem_of_find?_eq_some found)
    rw [label] at there
    refine ⟨x, there, ?_⟩
    obtain ⟨_, _, holds⟩ := evaluate_follows files.toArray levels 0 s envs _ _ ⟨reached, level⟩ (.body body)
    rw [evaluates] at holds
    obtain ⟨envs', longer, after, _⟩ := holds trivial
    obtain ⟨before, rest, split, _⟩ := List.lookup_eq_some_iff.mp there
    obtain ⟨_, env, at_, settles⟩ := after.cached ((id, name), .ok x) (split ▸ by simp)
    cases (getElem?_longer longer body).symm.trans at_
    exact settles

end Element

end StackLattice.Evaluation

namespace StackLattice.Package

open Syntax (Expr Decl LabelKind ParsedFile)
open Evaluation

def bodyOf (decls : List Decl) : Expr := .struct decls default

def both (left right : Expr) : Expr := .binary .unify left right

def regular (label : String) (value : Expr) : Decl := declare label .regular value

/-- `a: e` and `l: [e]` -/
def fieldAndElement (e : Expr) : List Decl :=
  twice ⟨"a", .regular, default⟩ ⟨"l", .regular, default⟩ [] [] default default default e

/-- `{x: 1} & {y: 2}` as a field and as an element -/
def twoLiterals : ParsedFile :=
  fileOf (fieldAndElement (both (bodyOf [regular "x" (number 1)]) (bodyOf [regular "y" (number 2)])))

/-- Whether the field `a` of a package has another value than the element of its field `l`. -/
def elementDiffers (files : List ParsedFile) : Bool :=
  match Package.value files with
  | .ok (.struct fields) =>
    match Field.find? fields "a", Field.find? fields "l" with
    | some ⟨_, _, _, _, x⟩, some ⟨_, _, _, _, .list [w]⟩ => !x.same w
    | _, _ => false
  | _ => false

theorem exists_of_elementDiffers {files : List ParsedFile} (h : elementDiffers files = true) :
    ∃ fields f g w, Package.value files = .ok (.struct fields) ∧ Field.find? fields "a" = some f ∧
      Field.find? fields "l" = some g ∧ g.value = .list [w] ∧ f.value.same w = false := by
  unfold elementDiffers at h
  split at h
  · rename_i fields value
    split at h
    · rename_i x _ _ _ _ w first second
      exact ⟨fields, _, _, w, value, first, second, rfl, by simpa using h⟩
    · cases h
  · cases h

def choice (e : Expr) : Expr := .paren e default

end StackLattice.Package
