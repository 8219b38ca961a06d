import StackLattice.Proofs.Evaluation.Order
import StackLattice.Proofs.Evaluation.Places
import StackLattice.Proofs.Value.Outline

/-!
The classes of what tasks come to. A body is the product of what it starts from and of its embeddings, and a field
the product of its conjuncts and of its body.
-/

namespace StackLattice.Evaluation

open Syntax (Expr Decl LabelKind ParsedFile)
open Value

variable {kinds : String → LabelKind}

theorem elsewhere_refl (t : Closure.Task) : elsewhere.Task t t := by
  cases t with
  | body env => exact .body (Env.Elsewhere.refl env)
  | expr e site => exact .expr (Env.Elsewhere.refl site.env) (names_univ e) rfl

theorem meaning_unique {n n' : Nat} {t : Closure.Task} {v v' : Value} (h : Closure.meaning n t = some (.ok v))
    (h' : Closure.meaning n' t = some (.ok v')) : v = v' := by
  have left := meaning_elsewhere (Nat.le_max_left n n') (elsewhere_refl t) h
  have right := meaning_elsewhere (Nat.le_max_right n n') (elsewhere_refl t) h'
  rw [left] at right
  cases right
  rfl

/-- The class of the value that a task comes to, or zero if it comes to none. -/
noncomputable def taskClass (kinds : String → LabelKind) (t : Closure.Task) : Class kinds :=
  open Classical in
  if h : ∃ v : Value, v.Tame kinds ∧ ∃ n, Closure.meaning n t = some (.ok v) then .of h.choose_spec.1 else 0

noncomputable def exprClass (kinds : String → LabelKind) (env : Env) (w : Written) : Class kinds :=
  taskClass kinds (.expr w.expr ⟨env, w.file, ""⟩)

noncomputable def bodyClass (kinds : String → LabelKind) (env : Env) : Class kinds := taskClass kinds (.body env)

section Tasks

variable {t t' : Closure.Task} {n : Nat} {v : Value}

theorem taskClass_of_meaning (tame : v.Tame kinds) (h : Closure.meaning n t = some (.ok v)) :
    taskClass kinds t = .of tame := by
  have comes : ∃ v : Value, v.Tame kinds ∧ ∃ n, Closure.meaning n t = some (.ok v) := ⟨v, tame, n, h⟩
  obtain ⟨_, found⟩ := comes.choose_spec.2
  rw [taskClass, dif_pos comes, Class.of_eq_of_iff, meaning_unique found h]
  exact .refl tame.proper

theorem exists_of_taskClass (live : taskClass kinds t ≠ 0) :
    ∃ n, ∃ (v : Value) (tame : v.Tame kinds), Closure.meaning n t = some (.ok v) ∧ taskClass kinds t = .of tame := by
  by_cases comes : ∃ v : Value, v.Tame kinds ∧ ∃ n, Closure.meaning n t = some (.ok v)
  · obtain ⟨v, tame, n, found⟩ := comes
    exact ⟨n, v, tame, found, taskClass_of_meaning tame found⟩
  · rw [taskClass, dif_neg comes] at live
    exact absurd rfl live

/-- Where all is alike, tasks come to the same. -/
theorem Likeness.taskClass_eq (L : Likeness) (alike : L.Task t t') (live : taskClass kinds t ≠ 0) :
    taskClass kinds t' = taskClass kinds t := by
  obtain ⟨n, v, tame, found, same⟩ := exists_of_taskClass live
  obtain ⟨r, found', agreeing⟩ := L.meaning_carries (Nat.le_refl n) t t' alike _ found
  cases agreeing with
  | ok equal =>
    subst equal
    rw [same, taskClass_of_meaning tame found']

theorem Env.Elsewhere.symm {env env' : Env} (h : env.Elsewhere env') : env'.Elsewhere env :=
  h.flip.imp fun _ _ same => ⟨same.1.symm, same.2.symm⟩

theorem elsewhere_symm (h : elsewhere.Task t t') : elsewhere.Task t' t := by
  cases h with
  | body alike => exact .body (Env.Elsewhere.symm alike)
  | expr alike inside file => exact .expr (Env.Elsewhere.symm alike) (names_univ _) file.symm

theorem taskClass_elsewhere (h : elsewhere.Task t t') : taskClass kinds t = taskClass kinds t' := by
  by_cases live : taskClass kinds t = 0
  · by_contra apart
    have live' : taskClass kinds t' ≠ 0 := fun dead => apart (live.trans dead.symm)
    exact apart (elsewhere.taskClass_eq (elsewhere_symm h) live')
  · exact (elsewhere.taskClass_eq h live).symm

theorem taskClass_expr (env : Env) (w : Written) (path : String) :
    taskClass kinds (.expr w.expr ⟨env, w.file, path⟩) = exprClass kinds env w :=
  taskClass_elsewhere (.expr (Env.Elsewhere.refl env) (names_univ _) rfl)

theorem tame_of_meaning (alike : t.Alike kinds t) (h : Closure.meaning n t = some (.ok v)) : v.Tame kinds := by
  obtain ⟨F, denotes, _⟩ := meaning_agree n t t alike
  exact (denotes _ h).1

theorem exists_taskClass (alike : t.Alike kinds t) (h : Closure.meaning n t = some (.ok v)) :
    ∃ tame : v.Tame kinds, taskClass kinds t = .of tame :=
  ⟨tame_of_meaning alike h, taskClass_of_meaning (tame_of_meaning alike h) h⟩

end Tasks

section Fields

variable {env : Env} {n : Nat}

theorem class_unifyAt {a b v : Value} (left : a.Tame kinds) (right : b.Tame kinds) {path : String}
    {fallback : Option Position} (h : Closure.unifyAt path fallback a b = some (.ok v)) :
    ∃ tame : v.Tame kinds, Class.of tame = Class.of left * Class.of right := by
  unfold Closure.unifyAt at h
  cases unified : a.unify b with
  | error c =>
    rw [unified] at h
    cases h
  | ok u =>
    rw [unified] at h
    cases h
    exact ⟨tame_unify left right unified, Class.of_unify left right unified⟩

theorem class_fold {fold : List Written → Value → Meaning Value} {step : Written → Meaning Value}
    {c : Written → Class kinds} (nil : ∀ v, fold [] v = Pure.pure v)
    (cons : ∀ w ws v, ∃ path fallback, fold (w :: ws) v = do
      let next ← step w
      fold ws (← Closure.unifyAt path fallback v next))
    {ws : List Written} (each : ∀ w ∈ ws, ∀ v, step w = some (.ok v) → ∃ tame : v.Tame kinds, c w = .of tame)
    {v u : Value} (tame : v.Tame kinds) (h : fold ws v = some (.ok u)) :
    ∃ tame' : u.Tame kinds, Class.of tame' = Class.of tame * (ws.map c).prod := by
  induction ws generalizing v with
  | nil =>
    rw [nil] at h
    cases h
    exact ⟨tame, (mul_one _).symm⟩
  | cons w ws ih =>
    obtain ⟨path, fallback, equation⟩ := cons w ws v
    rw [equation] at h
    obtain ⟨next, first, h⟩ | ⟨e, _, impossible⟩ := Meaning.bind_eq_some h
    · obtain ⟨tame', same⟩ := each w List.mem_cons_self next first
      obtain ⟨joined, unified, h⟩ | ⟨e, _, impossible⟩ := Meaning.bind_eq_some h
      · obtain ⟨tameJoined, product⟩ := class_unifyAt tame tame' unified
        obtain ⟨tameU, result⟩ := ih (fun w member => each w (List.mem_cons_of_mem _ member)) tameJoined h
        refine ⟨tameU, ?_⟩
        rw [result, product, List.map_cons, List.prod_cons, same, mul_assoc]
      · cases impossible
    · cases impossible

/-- The class of a field, or one if there is none. -/
noncomputable def fieldClass (kinds : String → LabelKind) (env : Env) (name : String) : Class kinds :=
  match env.find? name with
  | none => 1
  | some d => (d.conjuncts.map (exprClass kinds env)).prod * if d.opened then bodyClass kinds (env.inner name) else 1

theorem class_fieldValue (alike : env.Alike kinds env) {name : String} {d : Declared} (found : env.find? name = some d)
    {v : Value} (h : Closure.fieldValue (Closure.meaning n) env name = some (.ok v)) :
    ∃ tame : v.Tame kinds, fieldClass kinds env name = .of tame := by
  unfold Closure.fieldValue at h
  rw [found] at h
  obtain ⟨u, conjuncts, h⟩ | ⟨e, _, impossible⟩ := Meaning.bind_eq_some h
  · have each : ∀ w ∈ d.conjuncts, ∀ v,
        Closure.meaning n (.expr w.expr ⟨env, w.file, joinPath env.path name⟩) = some (.ok v) →
          ∃ tame : v.Tame kinds, exprClass kinds env w = .of tame := by
      intro w member v comes
      rw [← taskClass_expr env w (joinPath env.path name)]
      exact exists_taskClass (.expr (alike.tame_conjuncts found member) alike rfl) comes
    obtain ⟨tameU, product⟩ := class_fold (fun _ => rfl) (fun w ws v => ⟨_, _, rfl⟩) each tame_top conjuncts
    rw [fieldClass, found]
    have start : Class.of (tame_top : Value.top.Tame kinds) = 1 := rfl
    rw [start, one_mul] at product
    cases opened : d.opened with
    | false =>
      rw [opened] at h
      cases h
      exact ⟨tameU, by simp [opened, product]⟩
    | true =>
      rw [opened] at h
      obtain ⟨b, body, h⟩ | ⟨e, _, impossible⟩ := Meaning.bind_eq_some h
      · obtain ⟨tameB, same⟩ := exists_taskClass (.body (alike.inner name)) body
        obtain ⟨tame, joined⟩ := class_unifyAt tameU tameB h
        refine ⟨tame, ?_⟩
        rw [joined, product, ← same]
        simp [opened, bodyClass]
      · cases impossible
  · cases impossible

end Fields

section Bodies

variable {env : Env} {n : Nat}

/-- The outline of what is declared in a body. -/
noncomputable def envOutline (kinds : String → LabelKind) (env : Env) : Outline kinds where
  labels := {name | (env.find? name).isSome}
  required := {name | ∃ d, env.find? name = some d ∧ d.optional = false}
  classAt := fieldClass kinds env

theorem envOutline_of_empty (none : env.declared = []) : envOutline kinds env = 1 := by
  have absent (name : String) : env.find? name = Option.none := by rw [Env.find?, none]; rfl
  refine Outline.ext (Set.ext fun name => ?_) (Set.ext fun name => ?_) (funext fun name => ?_)
  · show (env.find? name).isSome ↔ False
    simp [absent]
  · show (∃ d, env.find? name = some d ∧ d.optional = false) ↔ False
    simp [absent]
  · show fieldClass kinds env name = 1
    rw [fieldClass, absent]

theorem outline_of_realized (alike : env.Alike kinds env) {fields : List (Field Value)}
    (realized : List.Forall₂ (Realizes ⟨Closure.meaning n, Closure.fieldValue (Closure.meaning n)⟩ env) env.declared
      fields) : outline kinds fields = envOutline kinds env := by
  have related := rel_find? (fun d f ⟨_, _, same⟩ => by rw [same]; rfl) realized
  refine Outline.ext (Set.ext fun name => ?_) (Set.ext fun name => ?_) (funext fun name => ?_)
  · have here := related name
    show (Field.find? fields name).isSome ↔ (Declared.find? env.declared name).isSome
    generalize Declared.find? env.declared name = d, Field.find? fields name = f at here
    cases here <;> simp
  · have here := related name
    show (∃ f, Field.find? fields name = some f ∧ f.optional = false) ↔
      ∃ d, Declared.find? env.declared name = some d ∧ d.optional = false
    generalize Declared.find? env.declared name = d, Field.find? fields name = f at here
    cases here with
    | none => simp
    | some realizes =>
      obtain ⟨v, _, rfl⟩ := realizes
      simp [fieldOf]
  · have here := related name
    show classAt kinds (Field.find? fields name) = fieldClass kinds env name
    cases found : Declared.find? env.declared name with
    | none =>
      rw [found] at here
      generalize Field.find? fields name = f at here
      cases here
      rw [fieldClass, Env.find?, found]
      rfl
    | some d =>
      rw [found] at here
      generalize Field.find? fields name = f at here
      cases here with
      | some realizes =>
        obtain ⟨v, comes, rfl⟩ := realizes
        rw [Declared.label_of_find? found] at comes
        obtain ⟨tame, same⟩ := class_fieldValue alike found comes
        rw [same]
        exact classAt_some tame

theorem exists_fields {v : Value} (h : Closure.meaning (n + 1) (.body env) = some (.ok v)) :
    ∃ fields, List.Forall₂ (Realizes ⟨Closure.meaning n, Closure.fieldValue (Closure.meaning n)⟩ env) env.declared
        fields ∧
      Closure.embedAll ⟨Closure.meaning n, Closure.fieldValue (Closure.meaning n)⟩ env env.embeds
        (if env.embeds.isEmpty || !env.declared.isEmpty then .struct fields else .top) = some (.ok v) := by
  obtain ⟨fields, found, rest⟩ | ⟨e, _, impossible⟩ := Meaning.bind_eq_some h
  · have realized := bodyFields_eq_some found
    have empty : fields.isEmpty = env.declared.isEmpty := by
      rw [Bool.eq_iff_iff, List.isEmpty_iff_length_eq_zero, List.isEmpty_iff_length_eq_zero, realized.length_eq]
    exact ⟨fields, realized, empty ▸ rest⟩
  · cases impossible

theorem tame_of_realized (alike : env.Alike kinds env) {fields : List (Field Value)}
    (realized : List.Forall₂ (Realizes ⟨Closure.meaning n, Closure.fieldValue (Closure.meaning n)⟩ env) env.declared
      fields) : (Value.struct fields).Tame kinds := by
  choose F ofField _ using fun name => fieldValue_agree (meaning_agree n) alike name
  exact tame_fields env.nodup_declared alike.kind_declared realized fun d _ => ofField d.label

/-- A body is the product of what it starts from and of its embeddings. -/
theorem class_body (alike : env.Alike kinds env) {v : Value}
    (h : Closure.meaning (n + 1) (.body env) = some (.ok v)) :
    ∃ c, Starts kinds c (env.embeds.isEmpty || !env.declared.isEmpty) (envOutline kinds env) ∧
      bodyClass kinds env = c * (env.embeds.map (exprClass kinds env)).prod := by
  obtain ⟨fields, realized, rest⟩ := exists_fields h
  have tameFields := tame_of_realized alike realized
  have each : ∀ w ∈ env.embeds, ∀ v, Closure.meaning n (.expr w.expr ⟨env, w.file, env.path⟩) = some (.ok v) →
      ∃ tame : v.Tame kinds, exprClass kinds env w = .of tame := by
    intro w member v comes
    rw [← taskClass_expr env w env.path]
    exact exists_taskClass (.expr (alike.tame_embeds member) alike rfl) comes
  have folded {start : Value} (tame : start.Tame kinds)
      (rest : Closure.embedAll ⟨Closure.meaning n, Closure.fieldValue (Closure.meaning n)⟩ env env.embeds start =
        some (.ok v)) :
      bodyClass kinds env = Class.of tame * (env.embeds.map (exprClass kinds env)).prod := by
    obtain ⟨tameV, product⟩ := class_fold (fun _ => rfl) (fun w ws v => ⟨_, _, rfl⟩) each tame rest
    rw [← product]
    exact taskClass_of_meaning tameV h
  cases isStruct : env.embeds.isEmpty || !env.declared.isEmpty with
  | true =>
    rw [isStruct] at rest
    exact ⟨_, outline_of_realized alike realized ▸ .struct tameFields, folded tameFields rest⟩
  | false =>
    rw [isStruct] at rest
    have none : env.declared = [] := by
      rw [Bool.or_eq_false_iff, Bool.not_eq_false', List.isEmpty_iff] at isStruct
      exact isStruct.2
    exact ⟨1, envOutline_of_empty none ▸ .top, folded tame_top rest⟩

theorem exists_opened_body {name : String} {d : Declared} (found : env.find? name = some d) (opened : d.opened = true)
    {v : Value} (comes : Closure.fieldValue (Closure.meaning n) env name = some (.ok v)) :
    ∃ u, Closure.meaning n (.body (env.inner name)) = some (.ok u) := by
  unfold Closure.fieldValue at comes
  simp only [found, opened] at comes
  obtain ⟨a, _, comes⟩ | ⟨e, _, impossible⟩ := Meaning.bind_eq_some comes
  · obtain ⟨u, body, _⟩ | ⟨e, _, impossible⟩ := Meaning.bind_eq_some comes
    · exact ⟨u, body⟩
    · cases impossible
  · cases impossible

theorem exists_inner {v : Value} (h : Closure.meaning (n + 1) (.body env) = some (.ok v)) {name : String} {d : Declared}
    (found : env.find? name = some d) (opened : d.opened = true) :
    ∃ u, Closure.meaning n (.body (env.inner name)) = some (.ok u) := by
  obtain ⟨fields, realized, _⟩ := exists_fields h
  obtain ⟨f, _, v, comes, _⟩ := exists_left_of_mem realized.flip (List.mem_of_find?_eq_some found)
  rw [Declared.label_of_find? found] at comes
  exact exists_opened_body found opened comes

end Bodies

section Mentioned

variable {b : Block} {trail : Trail} {name : String} (led : Declared.Led name (b.mentionsAt trail))

include led

theorem isSome_iff_said :
    (Declared.find? (b.declared trail) name).isSome ↔ ∃ m ∈ b.mentionsAt trail, m.about name = true := by
  have gathered := Declared.find?_foldl led (show Declared.find? [] name = none from rfl)
  rw [Block.declared]
  cases found : Declared.find? ((b.mentionsAt trail).foldl Mention.apply []) name with
  | none =>
    rw [found] at gathered
    simpa using gathered
  | some d =>
    rw [found] at gathered
    simpa using gathered.1

theorem required_iff_said :
    (∃ d, Declared.find? (b.declared trail) name = some d ∧ d.optional = false) ↔
      ∃ m ∈ b.mentionsAt trail, m.flag? name = some false := by
  have gathered := Declared.find?_foldl led (show Declared.find? [] name = none from rfl)
  rw [Block.declared]
  cases found : Declared.find? ((b.mentionsAt trail).foldl Mention.apply []) name with
  | none =>
    rw [found] at gathered
    have silent (m : Mention) (member : m ∈ b.mentionsAt trail) : m.flag? name ≠ some false := by
      rw [(Mention.silent (gathered m member)).1]
      exact Option.some_ne_none _ |>.symm
    simpa using silent
  | some d =>
    rw [found] at gathered
    obtain ⟨_, optional, _, _⟩ := gathered
    have flags : d.optional = false ↔ ∃ flag ∈ (b.mentionsAt trail).filterMap (Mention.flag? name), flag = false := by
      rw [optional, List.all_eq_false]
      simp only [id, Bool.not_eq_true]
    simpa only [Option.some.injEq, exists_eq_left', List.mem_filterMap, exists_eq_right] using flags

theorem fieldClass_said (rest : Env) :
    fieldClass kinds (⟨b, trail⟩ :: rest) name =
      (((b.mentionsAt trail).filterMap (Mention.conjunct? name)).map (exprClass kinds (⟨b, trail⟩ :: rest))).prod *
        if (b.mentionsAt trail).any (Mention.opens name) then bodyClass kinds (⟨b, name :: trail⟩ :: rest) else 1 := by
  have gathered := Declared.find?_foldl led (show Declared.find? [] name = none from rfl)
  rw [fieldClass, Env.find?, Env.declared, Block.declared]
  cases found : Declared.find? ((b.mentionsAt trail).foldl Mention.apply []) name with
  | none =>
    rw [found] at gathered
    have conjuncts : (b.mentionsAt trail).filterMap (Mention.conjunct? name) = [] :=
      List.filterMap_eq_nil_iff.mpr fun m member => (Mention.silent (gathered m member)).2.1
    have opens : (b.mentionsAt trail).any (Mention.opens name) = false :=
      List.any_eq_false.mpr fun m member => by simp [(Mention.silent (gathered m member)).2.2]
    simp [conjuncts, opens]
  | some d =>
    rw [found] at gathered
    obtain ⟨_, _, conjuncts, opened⟩ := gathered
    rw [← conjuncts, ← opened]
    rfl

theorem exists_opened (opens : (b.mentionsAt trail).any (Mention.opens name) = true) :
    ∃ d, Declared.find? (b.declared trail) name = some d ∧ d.opened = true := by
  have gathered := Declared.find?_foldl led (show Declared.find? [] name = none from rfl)
  rw [Block.declared]
  cases found : Declared.find? ((b.mentionsAt trail).foldl Mention.apply []) name with
  | none =>
    rw [found] at gathered
    obtain ⟨m, member, opens⟩ := List.any_eq_true.mp opens
    rw [(Mention.silent (gathered m member)).2.2] at opens
    cases opens
  | some d =>
    rw [found] at gathered
    exact ⟨d, rfl, gathered.2.2.2.trans opens⟩

end Mentioned

theorem declared_isEmpty_iff {b : Block} {trail : Trail} (led : ∀ name, Declared.Led name (b.mentionsAt trail)) :
    (b.declared trail).isEmpty = true ↔ ∀ m ∈ b.mentionsAt trail, ∀ name, m.about name = false := by
  rw [List.isEmpty_iff]
  constructor
  · intro none m member name
    by_contra about
    have found := (isSome_iff_said (led name)).mpr ⟨m, member, Bool.not_eq_false _ ▸ about⟩
    rw [none] at found
    cases found
  · intro silent
    refine List.eq_nil_iff_forall_not_mem.mpr fun d member => ?_
    have found : (Declared.find? (b.declared trail) d.label).isSome := by
      rw [Option.isSome_iff_ne_none, ne_eq, Declared.find?_eq_none, not_not]
      exact List.mem_map_of_mem member
    obtain ⟨m, said, about⟩ := (isSome_iff_said (led d.label)).mp found
    rw [silent m said] at about
    cases about

end StackLattice.Evaluation
