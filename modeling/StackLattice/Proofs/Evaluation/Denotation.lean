import StackLattice.Proofs.Evaluation.Operators
import StackLattice.Proofs.Evaluation.Plain

/-!
What evaluations come to in terms of branches. A conflict has none, and of any other error nothing is said, so
that the branches of a conjunction are the meet of its conjuncts whether or not evaluation gets to all of them.
-/

namespace StackLattice.Evaluation

open Syntax (Expr LabelKind)
open Value

variable {kinds : String → LabelKind}

/-- A tame value with these branches, no branches and a conflict, or another error. -/
def Bears (kinds : String → LabelKind) (F : Set (Set Value)) : Except EvalError Value → Prop
  | .ok v => v.Tame kinds ∧ v.branches = F
  | .error e => e.kind = .conflict → F = ∅

/-- Whatever an evaluation comes to, it bears these branches. -/
def Denotes (kinds : String → LabelKind) (m : Meaning Value) (F : Set (Set Value)) : Prop :=
  ∀ r, m = some r → Bears kinds F r

theorem Meaning.bind_eq_some {α β : Type} {m : Meaning α} {k : α → Meaning β} {r : Except EvalError β}
    (h : (m >>= k) = some r) :
    (∃ a, m = some (.ok a) ∧ k a = some r) ∨ ∃ e, m = some (.error e) ∧ r = .error e := by
  cases first : (show Option (Except EvalError α) from m) with
  | none =>
    rw [Meaning.bind_of_none first] at h
    cases h
  | some result =>
    cases result with
    | ok a =>
      rw [Meaning.bind_of_ok first] at h
      exact .inl ⟨a, rfl, h⟩
    | error e =>
      rw [Meaning.bind_of_error first] at h
      cases h
      exact .inr ⟨e, rfl, rfl⟩

namespace Denotes

variable {m : Meaning Value} {F G : Set (Set Value)}

theorem pure {v : Value} (tame : v.Tame kinds) : Denotes kinds (Pure.pure v) v.branches := by
  intro r h
  cases h
  exact ⟨tame, rfl⟩

theorem dead {e : EvalError} (other : e.kind ≠ .conflict) (F : Set (Set Value)) :
    Denotes kinds (throw e) F := by
  intro r h
  cases h
  exact fun conflict => absurd conflict other

theorem of_none (h : m = none) (F : Set (Set Value)) : Denotes kinds m F := by
  intro r found
  rw [h] at found
  cases found

theorem congr (h : Denotes kinds m F) (same : F = G) : Denotes kinds m G := same ▸ h

theorem bind {k : Value → Meaning Value} (first : Denotes kinds m F)
    (next : ∀ v, v.Tame kinds → v.branches = F → Denotes kinds (k v) G) (strict : F = ∅ → G = ∅) :
    Denotes kinds (m >>= k) G := by
  intro r h
  rcases Meaning.bind_eq_some h with ⟨v, found, rest⟩ | ⟨e, found, rfl⟩
  · obtain ⟨tame, same⟩ := first _ found
    exact next v tame same r rest
  · exact fun conflict => strict (first _ found conflict)

theorem unifyAt {a b : Value} (left : a.Tame kinds) (right : b.Tame kinds) (path : String)
    (fallback : Option Position) :
    Denotes kinds (Closure.unifyAt path fallback a b) (meet a.branches b.branches) := by
  have meets := meetsBranches left right
  intro r h
  unfold Closure.unifyAt at h
  cases unified : a.unify b with
  | ok v =>
    rw [unified] at h
    cases h
    refine ⟨tame_unify left right unified, Set.ext fun P => ?_⟩
    rw [← meets P, unified]
    simp [mem_branches]
  | error c =>
    rw [unified] at h
    cases h
    exact fun _ => Set.eq_empty_of_forall_notMem (not_mem_meet_of_error left.wellFormed right.wellFormed unified)

end Denotes

/-- The meet of the branches of conjuncts with those that are given. -/
def meetAll (S : Written → Set (Set Value)) (F : Set (Set Value)) (ws : List Written) : Set (Set Value) :=
  ws.foldl (fun G w => meet G (S w)) F

variable {S : Written → Set (Set Value)}

theorem meetAll_cons (F : Set (Set Value)) (w : Written) (ws : List Written) :
    meetAll S F (w :: ws) = meetAll S (meet F (S w)) ws := rfl

theorem meetAll_empty (ws : List Written) : meetAll S ∅ ws = ∅ := by
  induction ws with
  | nil => rfl
  | cons w ws ih => rw [meetAll_cons, empty_meet, ih]

theorem meetAll_perm {ws ws' : List Written} (perm : ws.Perm ws') (F : Set (Set Value)) :
    meetAll S F ws = meetAll S F ws' := by
  have commutes : RightCommutative fun G w => meet G (S w) := ⟨fun G w w' => meet_right_comm G (S w) (S w')⟩
  exact perm.foldl_eq F

section Fields

variable {task : Closure.Task → Meaning Value} {env : Env}

theorem denotes_fold {fold : List Written → Value → Meaning Value} {step : Written → Meaning Value}
    (nil : ∀ v, fold [] v = Pure.pure v)
    (cons : ∀ w ws v, ∃ path fallback, fold (w :: ws) v = do
      let next ← step w
      fold ws (← Closure.unifyAt path fallback v next))
    {ws : List Written} (each : ∀ w ∈ ws, Denotes kinds (step w) (S w)) {v : Value} (tame : v.Tame kinds) :
    Denotes kinds (fold ws v) (meetAll S v.branches ws) := by
  induction ws generalizing v with
  | nil =>
    rw [nil]
    exact .pure tame
  | cons w ws ih =>
    obtain ⟨path, fallback, equation⟩ := cons w ws v
    rw [equation, meetAll_cons]
    refine (each w List.mem_cons_self).bind (fun next tame' same => ?_) fun empty => ?_
    · rw [← same]
      refine (Denotes.unifyAt tame tame' path fallback).bind (fun u tameU sameU => ?_) fun empty => ?_
      · rw [← sameU]
        exact ih (fun w member => each w (List.mem_cons_of_mem _ member)) tameU
      · rw [empty, meetAll_empty]
    · rw [empty, meet_empty, meetAll_empty]

theorem denotes_conjoinAll (path : String) (position : Position) {ws : List Written}
    (each : ∀ w ∈ ws, Denotes kinds (task (.expr w.expr ⟨env, w.file, path⟩)) (S w)) {v : Value}
    (tame : v.Tame kinds) :
    Denotes kinds (Closure.conjoinAll task env path position ws v) (meetAll S v.branches ws) :=
  denotes_fold (fun _ => rfl) (fun _ _ _ => ⟨path, some position, rfl⟩) each tame

theorem denotes_embedAll {parts : Closure.Parts} {ws : List Written}
    (each : ∀ w ∈ ws, Denotes kinds (parts.task (.expr w.expr ⟨env, w.file, env.path⟩)) (S w)) {v : Value}
    (tame : v.Tame kinds) :
    Denotes kinds (Closure.embedAll parts env ws v) (meetAll S v.branches ws) :=
  denotes_fold (fun _ => rfl) (fun w _ _ => ⟨env.path, some (w.file.source.position w.expr.span), rfl⟩) each tame

def fieldBranches (S : Written → Set (Set Value)) (body : Set (Set Value)) (d : Declared) : Set (Set Value) :=
  let conjuncts := meetAll S {Set.univ} d.conjuncts
  if d.opened then meet conjuncts body else conjuncts

theorem denotes_fieldValue {label : String} {d : Declared} (found : env.find? label = some d)
    {body : Set (Set Value)}
    (each : ∀ w ∈ d.conjuncts, Denotes kinds (task (.expr w.expr ⟨env, w.file, joinPath env.path label⟩)) (S w))
    (inside : d.opened = true → Denotes kinds (task (.body (env.inner label))) body) :
    Denotes kinds (Closure.fieldValue task env label) (fieldBranches S body d) := by
  unfold Closure.fieldValue fieldBranches
  simp only [found]
  have conjuncts := denotes_conjoinAll _ d.position each tame_top
  rw [branches_top] at conjuncts
  refine conjuncts.bind (fun v tame same => ?_) fun empty => ?_
  · rw [← same]
    cases opened : d.opened with
    | true =>
      refine (inside opened).bind (fun u tameU sameU => ?_) fun empty => ?_
      · rw [← sameU]
        exact .unifyAt tame tameU _ _
      · simp only [if_true, empty, meet_empty]
    | false => exact .pure tame
  · rw [empty]
    split
    · exact empty_meet body
    · rfl

end Fields

section Lists

theorem Meaning.mapM_eq_some {α β : Type} {f : α → Meaning β} {xs : List α} {r : Except EvalError (List β)}
    (h : xs.mapM f = some r) :
    match r with
    | .ok ys => List.Forall₂ (fun x y => f x = some (.ok y)) xs ys
    | .error e => ∃ x ∈ xs, f x = some (.error e) := by
  induction xs generalizing r with
  | nil =>
    rw [List.mapM_nil] at h
    cases h
    exact .nil
  | cons x xs ih =>
    rw [List.mapM_cons] at h
    rcases Meaning.bind_eq_some h with ⟨y, first, h⟩ | ⟨e, first, rfl⟩
    · rcases Meaning.bind_eq_some h with ⟨ys, rest, h⟩ | ⟨e, rest, rfl⟩
      · cases h
        exact .cons first (ih rest)
      · obtain ⟨z, member, found⟩ := ih rest
        exact ⟨z, List.mem_cons_of_mem _ member, found⟩
    · exact ⟨x, List.mem_cons_self, first⟩

def listBranches (F : Expr → Set (Set Value)) (items : List Expr) : Set (Set Value) :=
  {P | ∃ choice, List.Forall₂ (fun item S => S ∈ F item) items choice ∧ P = listSet choice}

theorem denotes_list {value : Expr → Meaning Value} {F : Expr → Set (Set Value)} {items : List Expr}
    (each : ∀ item ∈ items, Denotes kinds (value item) (F item)) :
    Denotes kinds (do return list (← items.mapM value)) (listBranches F items) := by
  intro r h
  rcases Meaning.bind_eq_some h with ⟨vs, found, h⟩ | ⟨e, found, rfl⟩
  · cases h
    have values := Meaning.mapM_eq_some found
    refine ⟨(tame_list vs).mpr fun v member => ?_, Set.ext fun P => ?_⟩
    · obtain ⟨item, inside, result⟩ := exists_left_of_mem values member
      exact (each item inside _ result).1
    · rw [mem_branches, branch_list]
      refine exists_congr fun choice => and_congr_left' ?_
      refine (forall₂_congr_left values (fun item inside v _ result S => ?_) choice).symm
      rw [← (each item inside _ result).2]
      rfl
  · intro conflict
    obtain ⟨item, member, result⟩ := Meaning.mapM_eq_some found
    have empty := each item member _ result conflict
    refine Set.eq_empty_of_forall_notMem ?_
    rintro P ⟨choice, chosen, rfl⟩
    obtain ⟨S, _, inside⟩ := exists_left_of_mem chosen.flip member
    rw [empty] at inside
    exact inside

end Lists

section Bodies

variable {parts : Closure.Parts} {env : Env} {F : String → Set (Set Value)}

def declaredSignature (ds : List Declared) : Signature := fun label =>
  (Declared.find? ds label).map (·.optional)

/-- Structs of one branch for each label. -/
def structBranches (sig : Signature) (F : String → Set (Set Value)) : Set (Set Value) :=
  {P | ∃ choice : String → Set Value, (∀ label, choice label ∈ if (sig label).isSome then F label else {Set.univ}) ∧
    P = structSet sig choice}

def fieldOf (d : Declared) (value : Value) : Field Value :=
  { label := d.label, kind := d.kind, optional := d.optional, position := some d.position, value }

theorem bodyFields_eq_mapM (ds : List Declared) :
    Closure.bodyFields parts env ds = ds.mapM fun d => do return fieldOf d (← parts.field env d.label) := by
  induction ds with
  | nil => rfl
  | cons d ds ih =>
    rw [Closure.bodyFields, List.mapM_cons, ih]
    simp only [bind_assoc, pure_bind]
    rfl

/-- A field is what is declared, with a value that the evaluation of its label comes to. -/
def Realizes (parts : Closure.Parts) (env : Env) (d : Declared) (f : Field Value) : Prop :=
  ∃ v, parts.field env d.label = some (.ok v) ∧ f = fieldOf d v

theorem bodyFields_eq_some {ds : List Declared} {r : Except EvalError (List (Field Value))}
    (h : Closure.bodyFields parts env ds = some r) :
    match r with
    | .ok fields => List.Forall₂ (Realizes parts env) ds fields
    | .error e => ∃ d ∈ ds, parts.field env d.label = some (.error e) := by
  rw [bodyFields_eq_mapM] at h
  have results := Meaning.mapM_eq_some h
  cases r with
  | ok fields =>
    refine results.imp fun d f result => ?_
    rcases Meaning.bind_eq_some result with ⟨v, found, result⟩ | ⟨e, _, impossible⟩
    · cases result
      exact ⟨v, found, rfl⟩
    · cases impossible
  | error e =>
    obtain ⟨d, member, result⟩ := results
    rcases Meaning.bind_eq_some result with ⟨v, _, impossible⟩ | ⟨e, found, same⟩
    · cases impossible
    · cases same
      exact ⟨d, member, found⟩

theorem rel_find? {R : Declared → Field Value → Prop} (labels : ∀ d f, R d f → f.label = d.label)
    {ds : List Declared} {fields : List (Field Value)} (h : List.Forall₂ R ds fields) (label : String) :
    Option.Rel R (Declared.find? ds label) (Field.find? fields label) := by
  induction h with
  | nil => exact .none
  | @cons d f ds fields first _ ih =>
    rw [Field.find?_cons, labels d f first, Declared.find?, List.find?_cons]
    by_cases same : d.label = label
    · simpa only [same, beq_self_eq_true, if_true] using Option.Rel.some first
    · rw [if_neg same, beq_eq_false_iff_ne.mpr same]
      exact ih

theorem structBranches_eq_empty {ds : List Declared} {d : Declared} (member : d ∈ ds) (empty : F d.label = ∅) :
    structBranches (declaredSignature ds) F = ∅ := by
  have present : (declaredSignature ds d.label).isSome = true := by
    rw [declaredSignature, Option.isSome_map]
    cases found : Declared.find? ds d.label with
    | some _ => rfl
    | none => exact absurd (List.mem_map_of_mem member) (Declared.find?_eq_none.mp found)
  refine Set.eq_empty_of_forall_notMem ?_
  rintro P ⟨choice, chosen, rfl⟩
  have inside := chosen d.label
  rw [if_pos present, empty] at inside
  exact inside

theorem branches_fields {ds : List Declared} {fields : List (Field Value)}
    (realized : List.Forall₂ (Realizes parts env) ds fields)
    (each : ∀ d ∈ ds, Denotes kinds (parts.field env d.label) (F d.label)) :
    (struct fields).branches = structBranches (declaredSignature ds) F := by
  have related := rel_find? (fun d f ⟨_, _, same⟩ => by rw [same]; rfl) realized
  have signatures : signature fields = declaredSignature ds := by
    funext label
    have here := related label
    unfold signature declaredSignature
    generalize Declared.find? ds label = d, Field.find? fields label = f at here
    cases here with
    | none => rfl
    | some realizes =>
      obtain ⟨v, _, rfl⟩ := realizes
      rfl
  have restricts : ∀ label, allowed fields label =
      if (declaredSignature ds label).isSome then F label else {Set.univ} := by
    intro label
    have here := related label
    unfold allowed declaredSignature
    cases found : Declared.find? ds label with
    | none =>
      rw [found] at here
      generalize Field.find? fields label = f at here
      cases here
      rfl
    | some d =>
      rw [found] at here
      generalize Field.find? fields label = f at here
      cases here with
      | some realizes =>
        obtain ⟨v, result, rfl⟩ := realizes
        have member : d ∈ ds := List.mem_of_find?_eq_some found
        have inside := (each d member _ result).2
        rw [Declared.label_of_find? found] at inside
        exact inside
  ext P
  rw [mem_branches, branch_struct, signatures]
  simp only [restricts]
  rfl

theorem labels_of_realized {ds : List Declared} {fields : List (Field Value)}
    (realized : List.Forall₂ (Realizes parts env) ds fields) : fields.map (·.label) = ds.map (·.label) := by
  induction realized with
  | nil => rfl
  | cons first _ ih =>
    obtain ⟨v, _, rfl⟩ := first
    rw [List.map_cons, List.map_cons, ih]
    rfl

theorem tame_fields {ds : List Declared} (distinct : (ds.map (·.label)).Nodup)
    (labels : ∀ d ∈ ds, d.kind = kinds d.label) {fields : List (Field Value)}
    (realized : List.Forall₂ (Realizes parts env) ds fields)
    (each : ∀ d ∈ ds, Denotes kinds (parts.field env d.label) (F d.label)) : (struct fields).Tame kinds := by
  rw [tame_struct]
  refine ⟨⟨by rwa [Field.Distinct, labels_of_realized realized], fun f member => ?_⟩, fun f member => ?_⟩
  · obtain ⟨d, inside, v, _, rfl⟩ := exists_left_of_mem realized member
    exact labels d inside
  · obtain ⟨d, inside, v, result, rfl⟩ := exists_left_of_mem realized member
    exact (each d inside _ result).1

/-- The branches of a body: embeddings are met with its fields, or with anything if it has none. -/
def bodyBranches (F : String → Set (Set Value)) (S : Written → Set (Set Value)) (ds : List Declared)
    (embeds : List Written) : Set (Set Value) :=
  meetAll S (if embeds.isEmpty || !ds.isEmpty then structBranches (declaredSignature ds) F else {Set.univ}) embeds

theorem denotes_bodyValue (labels : ∀ d ∈ env.declared, d.kind = kinds d.label)
    (fields : ∀ d ∈ env.declared, Denotes kinds (parts.field env d.label) (F d.label))
    (embeds : ∀ w ∈ env.embeds, Denotes kinds (parts.task (.expr w.expr ⟨env, w.file, env.path⟩)) (S w)) :
    Denotes kinds (Closure.bodyValue parts env) (bodyBranches F S env.declared env.embeds) := by
  intro r h
  rcases Meaning.bind_eq_some h with ⟨found, result, rest⟩ | ⟨e, result, rfl⟩
  · have realized := bodyFields_eq_some result
    have empty : found.isEmpty = env.declared.isEmpty := by
      rw [Bool.eq_iff_iff, List.isEmpty_iff_length_eq_zero, List.isEmpty_iff_length_eq_zero, realized.length_eq]
    unfold bodyBranches
    rw [empty] at rest
    split at rest
    · rename_i isStruct
      rw [if_pos isStruct, ← branches_fields realized fields]
      exact denotes_embedAll embeds (tame_fields env.nodup_declared labels realized fields) r rest
    · rename_i isTop
      rw [if_neg isTop, ← branches_top]
      exact denotes_embedAll embeds tame_top r rest
  · intro conflict
    obtain ⟨d, member, found⟩ := bodyFields_eq_some result
    have empty := fields d member _ found conflict
    have some : (env.embeds.isEmpty || !env.declared.isEmpty) = true := by
      rw [List.isEmpty_eq_false_iff.mpr (List.ne_nil_of_mem member), Bool.not_false, Bool.or_true]
    rw [bodyBranches, if_pos some, structBranches_eq_empty member empty, meetAll_empty]

end Bodies

section Operands

variable {m : Meaning Value} {F : Set (Set Value)}

theorem denotes_unify {m' : Meaning Value} {G : Set (Set Value)} (left : Denotes kinds m F)
    (right : Denotes kinds m' G) (path : String) (fallback : Option Position) :
    Denotes kinds (m >>= fun a => m' >>= fun b => Closure.unifyAt path fallback a b) (meet F G) := by
  refine left.bind (fun a tame same => ?_) fun empty => ?_
  · refine right.bind (fun b tame' same' => ?_) fun empty => ?_
    · rw [← same, ← same']
      exact .unifyAt tame tame' path fallback
    · rw [empty, meet_empty]
  · rw [empty, empty_meet]

theorem denotes_negate (operand : Denotes kinds m F) {e : Value → EvalError} :
    Denotes kinds (m >>= fun v => match negate v with
      | some result => Pure.pure result
      | none => throw (e v)) (negations F) := by
  refine operand.bind (fun v tame same => ?_) fun empty => ?_
  · have branches := branches_negate tame
    rw [same] at branches
    cases negated : negate v with
    | some w =>
      rw [negated] at branches
      exact (Denotes.pure (tame_negate tame negated)).congr branches.symm
    | none =>
      rw [negated] at branches
      intro r h
      cases h
      exact fun _ => branches
  · rw [empty]
    refine Set.eq_empty_of_forall_notMem ?_
    rintro P ⟨u, w, _, impossible, _⟩
    exact (Set.singleton_ne_empty _ impossible.symm).elim

theorem denotes_select (base : Denotes kinds m F) (label : String) {e : Value → Problem → EvalError}
    (problem : ∀ v p, (e v p).kind = p.kind) :
    Denotes kinds (m >>= fun v => match Closure.selected label v with
      | .ok result => Pure.pure result
      | .error p => throw (e v p)) (selections label F) := by
  refine base.bind (fun v tame same => ?_) fun empty => ?_
  · cases selected : Closure.selected label v with
    | ok x =>
      obtain ⟨tame', branches⟩ := branches_selected tame selected
      rw [same] at branches
      exact (Denotes.pure tame').congr branches.symm
    | error p =>
      refine Denotes.dead (fun conflict => ?_) _
      rw [problem] at conflict
      rcases selected_kind selected with kind | kind <;> rw [kind] at conflict <;> cases conflict
  · rw [empty, selections, Set.image_empty]

end Operands

section Disjunctions

variable {parts : Closure.Parts} {site : Closure.Site} {F : Expr → Set (Set Value)}

theorem Meaning.attempt_eq_some {m : Meaning Value} {r : Except EvalError (Except EvalError Value)}
    (h : Closure.attempt m = some r) :
    (∃ v, m = some (.ok v) ∧ r = .ok (.ok v)) ∨
      (∃ e, m = some (.error e) ∧ e.kind = .conflict ∧ r = .ok (.error e)) ∨
      ∃ e, m = some (.error e) ∧ e.kind ≠ .conflict ∧ r = .error e := by
  cases first : (show Option (Except EvalError Value) from m) with
  | none =>
    rw [Meaning.attempt_of_none first] at h
    cases h
  | some result =>
    cases result with
    | ok v =>
      rw [Meaning.attempt_of_live first trivial] at h
      cases h
      exact .inl ⟨v, rfl, rfl⟩
    | error e =>
      by_cases conflict : e.kind = .conflict
      · rw [Meaning.attempt_of_live first conflict] at h
        cases h
        exact .inr (.inl ⟨e, rfl, conflict, rfl⟩)
      · rw [Meaning.attempt_of_dead first conflict] at h
        cases h
        exact .inr (.inr ⟨e, rfl, conflict, rfl⟩)

/-- The alternatives that operands come to, and the conflict of one that drops out. -/
structure Gathers (kinds : String → LabelKind) (F : Expr → Set (Set Value)) (operands : List Expr)
    (found : List (Alternative Value)) (dropped : Option EvalError) : Prop where
  tame : ∀ a ∈ found, a.marked = false ∧ a.value.Tame kinds
  branches : ∀ P, (∃ a ∈ found, a.value.Branch P) ↔ ∃ operand ∈ operands, P ∈ F operand
  conflict : ∀ e, dropped = some e → e.kind = .conflict
  reason : operands ≠ [] → found = [] → dropped ≠ none

theorem alternatives_eq_some {operands : List Expr} (unmarked : ∀ e ∈ operands, Closure.unmarked e = (false, e))
    (each : ∀ e ∈ operands, Denotes kinds (parts.task (.expr e site)) (F e))
    {r : Except EvalError (List (Alternative Value) × Option EvalError)}
    (h : Closure.alternatives parts site operands = some r) :
    match r with
    | .ok (found, conflict) => Gathers kinds F operands found conflict
    | .error e => e.kind ≠ .conflict := by
  induction operands generalizing r with
  | nil =>
    cases h
    exact ⟨by simp, by simp, by simp, by simp⟩
  | cons operand operands ih =>
    have rest := fun {r} => ih (fun e member => unmarked e (List.mem_cons_of_mem _ member))
      (fun e member => each e (List.mem_cons_of_mem _ member)) (r := r)
    have first := each operand List.mem_cons_self
    rw [Closure.alternatives, unmarked operand List.mem_cons_self] at h
    rcases Meaning.bind_eq_some h with ⟨result, tried, h⟩ | ⟨e, tried, rfl⟩
    · rcases Meaning.bind_eq_some h with ⟨⟨found, conflict⟩, others, h⟩ | ⟨e, others, rfl⟩
      · have gathers := rest others
        rcases Meaning.attempt_eq_some tried with ⟨v, value, same⟩ | ⟨e, value, dropped, same⟩ | ⟨_, _, _, same⟩
        · cases same
          cases h
          obtain ⟨tame, branches⟩ := first _ value
          refine ⟨List.forall_mem_cons.mpr ⟨⟨rfl, tame⟩, gathers.tame⟩, fun P => ?_, gathers.conflict, by simp⟩
          rw [List.exists_mem_cons_iff, List.exists_mem_cons_iff, gathers.branches, ← branches]
          rfl
        · cases same
          cases h
          have empty := first _ value dropped
          refine ⟨gathers.tame, fun P => ?_, fun e' same => ?_, by simp⟩
          · rw [List.exists_mem_cons_iff, gathers.branches, empty]
            simp
          · cases same
            exact dropped
        · cases same
      · exact rest others
    · rcases Meaning.attempt_eq_some tried with ⟨_, _, same⟩ | ⟨_, _, _, same⟩ | ⟨_, _, other, same⟩
      · cases same
      · cases same
      · cases same
        exact other

theorem denotes_disjunction {e : Expr} (unmarked : ∀ o ∈ operands e, Closure.unmarked o = (false, o))
    (each : ∀ o ∈ operands e, Denotes kinds (parts.task (.expr o site)) (F o)) :
    Denotes kinds (Closure.disjunctionValue parts site e) {P | ∃ o ∈ operands e, P ∈ F o} := by
  intro r h
  rcases Meaning.bind_eq_some h with ⟨⟨found, conflict⟩, result, rest⟩ | ⟨e, result, rfl⟩
  · have gathers : Gathers kinds F (operands e) found conflict := alternatives_eq_some unmarked each result
    have nothing (empty : found = []) : {P | ∃ o ∈ operands e, P ∈ F o} = ∅ := by
      refine Set.eq_empty_of_forall_notMem fun P holds => ?_
      obtain ⟨a, member, _⟩ := (gathers.branches P).mpr holds
      rw [empty] at member
      cases member
    cases found with
    | nil =>
      cases conflict with
      | none => exact absurd rfl (gathers.reason (operands_ne_nil e) rfl)
      | some err =>
        cases rest
        exact fun _ => nothing rfl
    | cons a found =>
      cases rest
      refine ⟨tame_disjoin false (List.cons_ne_nil _ _) gathers.tame, Set.ext fun P => ?_⟩
      rw [mem_branches, branch_disjoin fun a member => (gathers.tame a member).2.wellFormed, gathers.branches]
      rfl
  · exact fun conflict => absurd conflict (alternatives_eq_some unmarked each result)

end Disjunctions

end StackLattice.Evaluation
