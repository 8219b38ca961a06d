import StackLattice.Proofs.Evaluation.Classed

/-!
Struct literals that are declared for one field. Their declarations join in one body, and that body is the product
of the bodies that the literals are by themselves.
-/

namespace StackLattice.Evaluation

open Syntax (Expr Decl LabelKind ParsedFile)
open Value

variable {kinds : String → LabelKind}

/-- Names that are declared neither in the body at a trail nor in one around it. -/
def Undeclared (ms : List (Trail × Mention)) (trail : Trail) : Set String :=
  {name | ∀ around, around <:+ trail → ¬ Declares ms around name}

/-- No expression of the one literal mentions a name that the other declares in the body that the expression stands in
    or in one around it, and where the one literal is empty the other embeds nothing. -/
structure Apart (ms ms' : List (Trail × Mention)) : Prop where
  names : ∀ m ∈ ms, m.2.Everywhere (Expr.NamesHere (Undeclared ms' m.1)) fun _ => True
  embeds : ∀ trail, trail = [] ∨ Opens ms trail → mentionsAt trail ms = [] →
    (mentionsAt trail ms').filterMap Mention.embed? = []

variable {block : Block} {label : String} {base : Trail} {literals : List (List (Trail × Mention))}

/-- A block in which the literals are put together at a trail. -/
structure Merges (block : Block) (label : String) (base : Trail) (literals : List (List (Trail × Mention))) : Prop where
  merged : ∀ trail, block.mentionsAt (trail ++ label :: base) = mentionsAt trail literals.flatten
  grown : ∀ ms ∈ literals, Grown [] (fun _ => False) ms
  apart : literals.Pairwise fun ms ms' => Apart ms ms' ∧ Apart ms' ms

theorem mentionsAt_flatten (trail : Trail) (mss : List (List (Trail × Mention))) :
    mentionsAt trail mss.flatten = mss.flatMap (mentionsAt trail) := by
  induction mss with
  | nil => rfl
  | cons ms mss ih => rw [List.flatten_cons, mentionsAt_append, ih, List.flatMap_cons]

namespace Merges

variable (h : Merges block label base literals)

def among {before after : List (List (Trail × Mention))} {ms : List (Trail × Mention)}
    (split : literals = before ++ ms :: after) : Among block label base where
  before := before.flatten
  own := ms
  after := after.flatten
  merged trail := by
    rw [h.merged, split, List.flatten_append, List.flatten_cons, List.append_assoc]

variable {before after : List (List (Trail × Mention))} {ms : List (Trail × Mention)}
  (split : literals = before ++ ms :: after)

theorem alone_iff {trail : Trail} {name : String} :
    (h.among split).Alone trail name ↔ ∀ ms' ∈ before ++ after, Silent ms' trail name := by
  simp only [Among.Alone, among, Silent, mentionsAt_flatten, List.mem_flatMap, List.mem_append]
  constructor
  · rintro ⟨first, last⟩ ms' (inside | inside) m member
    · exact first m ⟨ms', inside, member⟩
    · exact last m ⟨ms', inside, member⟩
  · refine fun each => ⟨?_, ?_⟩
    · rintro m ⟨ms', inside, member⟩
      exact each ms' (.inl inside) m member
    · rintro m ⟨ms', inside, member⟩
      exact each ms' (.inr inside) m member

include h split

theorem grown_other {ms' : List (Trail × Mention)} (other : ms' ∈ before ++ after) : Grown [] (fun _ => False) ms' := by
  refine h.grown ms' ?_
  rw [split]
  exact List.mem_append.mpr ((List.mem_append.mp other).imp_right (List.mem_cons_of_mem ms))

theorem apart_other {ms' : List (Trail × Mention)} (other : ms' ∈ before ++ after) : Apart ms ms' := by
  have apart := h.apart
  rw [split, List.pairwise_append, List.pairwise_cons] at apart
  rcases List.mem_append.mp other with inside | inside
  · exact (apart.2.2 ms' inside ms List.mem_cons_self).2
  · exact (apart.2.1.1 ms' inside).1

theorem sound : (h.among split).Sound where
  seen := by
    intro m member
    have each (i : {ms' // ms' ∈ before ++ after}) :
        m.2.Everywhere (Expr.NamesHere (Undeclared i.val m.1)) fun _ => True :=
      (h.apart_other split i.property).names m member
    refine Mention.everywhere_of_family (fun e names => ?_) (fun _ => trivial) each
    cases e with
    | ident name =>
      intro around suffix
      rw [alone_iff]
      exact fun ms' other => (h.grown_other split other).silent (names ⟨ms', other⟩ around suffix)
    | _ => trivial
  closed := by
    intro trail name alone inside
    have nothing {ms' : List (Trail × Mention)} (other : ms' ∈ before ++ after) :
        mentionsAt (inside ++ name :: trail) ms' = [] := by
      refine List.eq_nil_iff_forall_not_mem.mpr fun m member => ?_
      obtain ⟨l, optional, file, declared, same⟩ :=
        (h.grown_other split other).declares_around (mem_mentionsAt.mp member)
      have silent := (h.alone_iff split).mp alone ms' other _ (mem_mentionsAt.mpr declared)
      rw [Mention.about, same, beq_self_eq_true] at silent
      cases silent
    refine ⟨?_, ?_⟩
    · rw [among, mentionsAt_flatten, List.flatMap_eq_nil_iff]
      exact fun ms' other => nothing (List.mem_append_left _ other)
    · rw [among, mentionsAt_flatten, List.flatMap_eq_nil_iff]
      exact fun ms' other => nothing (List.mem_append_right _ other)

end Merges

section Joined

/-- The body in which the literals join, at a trail inside. -/
def joined (block : Block) (label : String) (base : Trail) (outer : Env) (trail : Trail) : Env :=
  ⟨block, trail ++ label :: base⟩ :: outer

/-- The body of a literal by itself, at a trail inside. -/
def single (block : Block) (base : Trail) (outer : Env) (ms : List (Trail × Mention)) (trail : Trail) : Env :=
  ⟨⟨"", ms⟩, trail⟩ :: ⟨block, base⟩ :: outer

theorem prod_map_flatMap {α β M : Type} [Monoid M] (f : α → List β) (g : β → M) (xs : List α) :
    ((xs.flatMap f).map g).prod = (xs.map fun x => ((f x).map g).prod).prod := by
  induction xs with
  | nil => rfl
  | cons x xs ih => rw [List.flatMap_cons, List.map_append, List.prod_append, ih, List.map_cons, List.prod_cons]

variable (outer : Env) (trail : Trail)

/-- What a literal mentions comes to the same by itself as among the others. -/
theorem exprClass_joined (h : Merges block label base literals) {ms : List (Trail × Mention)} (member : ms ∈ literals)
    {w : Written} (names : ∀ p : Expr → Prop, (∀ m ∈ mentionsAt trail ms, m.Everywhere p fun _ => True) →
      w.expr.Everywhere p fun _ => True) (live : exprClass kinds (joined block label base outer trail) w ≠ 0) :
    exprClass kinds (joined block label base outer trail) w = exprClass kinds (single block base outer ms trail) w := by
  obtain ⟨before, after, split⟩ := List.append_of_mem member
  have sound := h.sound split
  have inside : w.expr.Names ((h.among split).Seen trail) :=
    names _ fun m said => sound.seen (trail, m) (mem_mentionsAt.mp said)
  have alike : ((h.among split).likeness outer sound).Task (.expr w.expr ⟨joined block label base outer trail, w.file, ""⟩)
      (.expr w.expr ⟨single block base outer ms trail, w.file, ""⟩) :=
    .expr (.within "" subset_rfl) inside rfl
  exact (Likeness.taskClass_eq _ alike live).symm

/-- The same for all that is said of one kind. -/
theorem prod_joined (h : Merges block label base literals) (said : Mention → Option Written)
    (inside : ∀ m w, said m = some w → ∀ p : Expr → Prop, (m.Everywhere p fun _ => True) →
      w.expr.Everywhere p fun _ => True)
    (live : (((block.mentionsAt (trail ++ label :: base)).filterMap said).map
      (exprClass kinds (joined block label base outer trail))).prod ≠ 0) :
    (((block.mentionsAt (trail ++ label :: base)).filterMap said).map
        (exprClass kinds (joined block label base outer trail))).prod =
      (literals.map fun ms => (((mentionsAt trail ms).filterMap said).map
        (exprClass kinds (single block base outer ms trail))).prod).prod := by
  have each (w : Written) (member : w ∈ (block.mentionsAt (trail ++ label :: base)).filterMap said) :
      exprClass kinds (joined block label base outer trail) w ≠ 0 :=
    Class.ne_zero_of_mem live (List.mem_map_of_mem member)
  rw [h.merged, mentionsAt_flatten, List.filterMap_flatMap] at each ⊢
  rw [prod_map_flatMap]
  refine congrArg List.prod (List.map_congr_left fun ms member => ?_)
  refine congrArg List.prod (List.map_congr_left fun w found => ?_)
  refine exprClass_joined outer trail h member (fun p everywhere => ?_)
    (each w (List.mem_flatMap.mpr ⟨ms, member, found⟩))
  obtain ⟨m, mentioned, same⟩ := List.mem_filterMap.mp found
  exact inside m w same p (everywhere m mentioned)

/-- The class of the body of a literal at a trail inside, or one if there is none. -/
noncomputable def partClass (kinds : String → LabelKind) (block : Block) (base : Trail) (outer : Env) (trail : Trail)
    (ms : List (Trail × Mention)) : Class kinds :=
  open Classical in
  if trail = [] ∨ Opens ms trail then bodyClass kinds (single block base outer ms trail) else 1

theorem partClass_nil (ms : List (Trail × Mention)) :
    partClass kinds block base outer [] ms = bodyClass kinds (single block base outer ms []) := if_pos (.inl rfl)

theorem opens_iff {ms : List (Trail × Mention)} {name : String} :
    Opens ms (name :: trail) ↔ (mentionsAt trail ms).any (Mention.opens name) = true := by
  rw [Opens, ← mem_mentionsAt, List.any_eq_true]
  constructor
  · exact fun member => ⟨_, member, beq_self_eq_true name⟩
  · rintro ⟨m, member, opens⟩
    cases m with
    | literal l => exact beq_iff_eq.mp opens ▸ member
    | _ => cases opens

theorem partClass_cons (name : String) (ms : List (Trail × Mention)) :
    partClass kinds block base outer (name :: trail) ms = if (mentionsAt trail ms).any (Mention.opens name) then
      bodyClass kinds (single block base outer ms (name :: trail)) else 1 := by
  simp only [partClass, reduceCtorEq, false_or, opens_iff]

variable {outer trail} (h : Merges block label base literals) (alike : Env.Alike kinds (⟨block, base⟩ :: outer)
  (⟨block, base⟩ :: outer)) (tame : ∀ ms ∈ literals, (⟨"", ms⟩ : Block).Rearranged kinds ⟨"", ms⟩)

include h in
theorem mem_joined {m : Mention} :
    m ∈ block.mentionsAt (trail ++ label :: base) ↔ ∃ ms ∈ literals, m ∈ mentionsAt trail ms := by
  rw [h.merged, mentionsAt_flatten, List.mem_flatMap]

section Alike

include alike

theorem rearranged_block : block.Rearranged kinds block := by
  cases alike with
  | cons first _ => exact first.2

theorem alike_joined : Env.Alike kinds (joined block label base outer trail) (joined block label base outer trail) := by
  cases alike with
  | cons first rest => exact .cons ⟨rfl, first.2⟩ rest

include tame in
theorem alike_single {ms : List (Trail × Mention)} (member : ms ∈ literals) :
    Env.Alike kinds (single block base outer ms trail) (single block base outer ms trail) :=
  .cons ⟨rfl, tame ms member⟩ alike

end Alike

include h in
theorem class_bodies_joined {name : String}
    (bodies : (block.mentionsAt (trail ++ label :: base)).any (Mention.opens name) = true →
      bodyClass kinds (joined block label base outer (name :: trail)) =
        (literals.map (partClass kinds block base outer (name :: trail))).prod) :
    (if (block.mentionsAt (trail ++ label :: base)).any (Mention.opens name) then
      bodyClass kinds (joined block label base outer (name :: trail)) else 1) =
    (literals.map fun ms => if (mentionsAt trail ms).any (Mention.opens name) then
      bodyClass kinds (single block base outer ms (name :: trail)) else 1).prod := by
  simp only [← partClass_cons]
  cases opened : (block.mentionsAt (trail ++ label :: base)).any (Mention.opens name) with
  | true => exact bodies opened
  | false =>
    rw [if_neg Bool.false_ne_true]
    refine (List.prod_eq_one fun c member => ?_).symm
    obtain ⟨ms, inside, rfl⟩ := List.mem_map.mp member
    rw [partClass_cons, if_neg]
    rw [List.any_eq_true]
    rintro ⟨m, said, opens⟩
    have impossible := List.any_eq_false.mp opened m ((mem_joined h).mpr ⟨ms, inside, said⟩)
    exact impossible opens

include h alike tame

/-- What is declared in the body that literals join in is what is declared in them. -/
theorem outline_joined (live : ∀ name, fieldClass kinds (joined block label base outer trail) name ≠ 0)
    (bodies : ∀ name, (block.mentionsAt (trail ++ label :: base)).any (Mention.opens name) = true →
      bodyClass kinds (joined block label base outer (name :: trail)) =
        (literals.map (partClass kinds block base outer (name :: trail))).prod) :
    envOutline kinds (joined block label base outer trail) =
      (literals.map fun ms => envOutline kinds (single block base outer ms trail)).prod := by
  have led (name : String) := (rearranged_block alike).led (trail ++ label :: base) name
  have ledAt {ms : List (Trail × Mention)} (member : ms ∈ literals) (name : String) := (tame ms member).led trail name
  refine Outline.ext (Set.ext fun name => ?_) (Set.ext fun name => ?_) (funext fun name => ?_)
  · rw [Outline.mem_labels_prod]
    refine (isSome_iff_said (led name)).trans ?_
    simp only [mem_joined h]
    constructor
    · rintro ⟨m, ⟨ms, member, said⟩, about⟩
      exact ⟨ms, member, (isSome_iff_said (ledAt member name)).mpr ⟨m, said, about⟩⟩
    · rintro ⟨ms, member, found⟩
      obtain ⟨m, said, about⟩ := (isSome_iff_said (ledAt member name)).mp found
      exact ⟨m, ⟨ms, member, said⟩, about⟩
  · rw [Outline.mem_required_prod]
    refine (required_iff_said (led name)).trans ?_
    simp only [mem_joined h]
    constructor
    · rintro ⟨m, ⟨ms, member, said⟩, flag⟩
      exact ⟨ms, member, (required_iff_said (ledAt member name)).mpr ⟨m, said, flag⟩⟩
    · rintro ⟨ms, member, found⟩
      obtain ⟨m, said, flag⟩ := (required_iff_said (ledAt member name)).mp found
      exact ⟨m, ⟨ms, member, said⟩, flag⟩
  · rw [Outline.classAt_prod]
    have whole := live name
    show fieldClass kinds (joined block label base outer trail) name = _
    rw [joined, fieldClass_said (led name)] at whole ⊢
    have conjuncts := prod_joined outer trail h (Mention.conjunct? name) ?_ (left_ne_zero_of_mul whole)
    · have product := class_bodies_joined h (bodies name)
      rw [joined] at conjuncts product
      rw [conjuncts]
      refine (congrArg _ product).trans ?_
      rw [← List.prod_map_mul]
      refine congrArg List.prod (List.map_congr_left fun ms member => ?_)
      exact (fieldClass_said (ledAt member name) _).symm
    · intro m w said p everywhere
      cases m with
      | conjunct l e file =>
        rw [Mention.conjunct?] at said
        split at said <;> cases said
        exact everywhere
      | _ => cases said

/-- Whether there is a body of a literal at a trail, and it starts from a struct. -/
noncomputable def startsStruct (trail : Trail) (ms : List (Trail × Mention)) : Bool :=
  open Classical in
  decide (trail = [] ∨ Opens ms trail) &&
    (((⟨"", ms⟩ : Block).embeds trail).isEmpty || !((⟨"", ms⟩ : Block).declared trail).isEmpty)

open Classical in
theorem exists_start {ms : List (Trail × Mention)} (member : ms ∈ literals)
    (live : partClass kinds block base outer trail ms ≠ 0) :
    ∃ c, Starts kinds c (startsStruct trail ms) (envOutline kinds (single block base outer ms trail)) ∧
      partClass kinds block base outer trail ms = c * (((mentionsAt trail ms).filterMap Mention.embed?).map
        (exprClass kinds (single block base outer ms trail))).prod := by
  by_cases there : trail = [] ∨ Opens ms trail
  · rw [partClass, if_pos there] at live ⊢
    obtain ⟨n, v, _, comes, _⟩ := exists_of_taskClass live
    obtain _ | n := n
    · cases comes
    obtain ⟨c, starts, product⟩ := class_body (alike_single alike tame member) comes
    rw [startsStruct, decide_eq_true there, Bool.true_and]
    exact ⟨c, starts, product⟩
  · obtain ⟨some, closed⟩ := not_or.mp there
    have nothing := (h.grown ms member).mentionsAt_eq_nil some closed
    have empty : (single block base outer ms trail).declared = [] := by
      show ((mentionsAt trail ms).foldl Mention.apply []) = []
      rw [nothing]
      rfl
    rw [partClass, if_neg there, startsStruct, decide_eq_false there, Bool.false_and, envOutline_of_empty empty, nothing]
    exact ⟨1, .top, (mul_one 1).symm⟩

omit h alike in
open Classical in
theorem startsStruct_iff {ms : List (Trail × Mention)} (member : ms ∈ literals) : startsStruct trail ms = true ↔
    (trail = [] ∨ Opens ms trail) ∧ ((mentionsAt trail ms).filterMap Mention.embed? = [] ∨
      ∃ m ∈ mentionsAt trail ms, ∃ name, m.about name = true) := by
  have declared := declared_isEmpty_iff fun name => (tame ms member).led trail name
  rw [startsStruct, Bool.and_eq_true, decide_eq_true_iff, Bool.or_eq_true, List.isEmpty_iff, Bool.not_eq_true',
    ← Bool.not_eq_true, declared]
  simp only [not_forall, Bool.not_eq_false, exists_prop]
  exact Iff.rfl

theorem startsStruct_joined (some : ∃ ms ∈ literals, trail = [] ∨ Opens ms trail) :
    ((block.embeds (trail ++ label :: base)).isEmpty || !(block.declared (trail ++ label :: base)).isEmpty) =
      literals.any (startsStruct trail) := by
  have declared := declared_isEmpty_iff fun name => (rearranged_block alike).led (trail ++ label :: base) name
  have embeds : block.embeds (trail ++ label :: base) = [] ↔
      ∀ ms ∈ literals, (mentionsAt trail ms).filterMap Mention.embed? = [] := by
    rw [Block.embeds, h.merged, mentionsAt_flatten, List.filterMap_flatMap, List.flatMap_eq_nil_iff]
  rw [Bool.eq_iff_iff, Bool.or_eq_true, List.isEmpty_iff, embeds, Bool.not_eq_true', ← Bool.not_eq_true, declared,
    List.any_eq_true]
  simp only [not_forall, Bool.not_eq_false, exists_prop, mem_joined h]
  constructor
  · rintro (none | ⟨m, ⟨ms, member, said⟩, name, about⟩)
    · obtain ⟨ms, member, there⟩ := some
      exact ⟨ms, member, (startsStruct_iff tame member).mpr ⟨there, .inl (none ms member)⟩⟩
    · refine ⟨ms, member, (startsStruct_iff tame member).mpr ⟨?_, .inr ⟨m, said, name, about⟩⟩⟩
      exact (h.grown ms member).opened _ (mem_mentionsAt.mp said)
  · rintro ⟨ms, member, isStruct⟩
    obtain ⟨there, none | ⟨m, said, name, about⟩⟩ := (startsStruct_iff tame member).mp isStruct
    · by_cases silent : ∀ m ∈ mentionsAt trail ms, ∀ name, m.about name = false
      · have empty : mentionsAt trail ms = [] := by
          refine List.eq_nil_iff_forall_not_mem.mpr fun m said => ?_
          cases m with
          | embed e file =>
            have kept := List.mem_filterMap.mpr ⟨_, said, (rfl : Mention.embed? (.embed e file) = _)⟩
            rw [none] at kept
            cases kept
          | label l _ _ => simpa [Mention.about] using silent _ said l.name
          | conjunct l _ _ | literal l => simpa [Mention.about] using silent _ said l
        obtain ⟨before, after, split⟩ := List.append_of_mem member
        refine .inl fun ms' other => ?_
        rw [split, List.mem_append, List.mem_cons] at other
        rcases other with other | rfl | other
        · exact (h.apart_other split (List.mem_append_left _ other)).embeds trail there empty
        · exact none
        · exact (h.apart_other split (List.mem_append_right _ other)).embeds trail there empty
      · simp only [not_forall, Bool.not_eq_false, exists_prop] at silent
        obtain ⟨m, said, name, about⟩ := silent
        exact .inr ⟨m, ⟨ms, member, said⟩, name, about⟩
    · exact .inr ⟨m, ⟨ms, member, said⟩, name, about⟩

omit h alike in
theorem live_inner {name : String}
    (live : (literals.map fun ms => envOutline kinds (single block base outer ms trail)).prod.classAt name ≠ 0) :
    (literals.map (partClass kinds block base outer (name :: trail))).prod ≠ 0 := by
  have factors (ms : List (Trail × Mention)) (member : ms ∈ literals) :
      (envOutline kinds (single block base outer ms trail)).classAt name =
        (((mentionsAt trail ms).filterMap (Mention.conjunct? name)).map
          (exprClass kinds (single block base outer ms trail))).prod *
        partClass kinds block base outer (name :: trail) ms := by
    rw [partClass_cons]
    exact fieldClass_said ((tame ms member).led trail name) _
  rw [Outline.classAt_prod, List.map_congr_left factors, List.prod_map_mul] at live
  exact right_ne_zero_of_mul live

/-- The body that literals join in is the product of the bodies that they are by themselves. -/
theorem class_joined {n : Nat} {v : Value}
    (comes : Closure.meaning n (.body (joined block label base outer trail)) = some (.ok v))
    (some : ∃ ms ∈ literals, trail = [] ∨ Opens ms trail)
    (live : (literals.map (partClass kinds block base outer trail)).prod ≠ 0) :
    bodyClass kinds (joined block label base outer trail) =
      (literals.map (partClass kinds block base outer trail)).prod := by
  induction n generalizing trail v with
  | zero => cases comes
  | succ n ih =>
    -- What each literal starts from, and the product of it.
    have exists_each (ms : List (Trail × Mention)) : ∃ c, ms ∈ literals →
        Starts kinds c (startsStruct trail ms) (envOutline kinds (single block base outer ms trail)) ∧
          partClass kinds block base outer trail ms = c * (((mentionsAt trail ms).filterMap Mention.embed?).map
            (exprClass kinds (single block base outer ms trail))).prod := by
      by_cases member : ms ∈ literals
      · obtain ⟨c, both⟩ := exists_start h alike tame member (Class.ne_zero_of_mem live (List.mem_map_of_mem member))
        exact ⟨c, fun _ => both⟩
      · exact ⟨1, fun inside => absurd inside member⟩
    choose start each using exists_each
    have products : (literals.map (partClass kinds block base outer trail)).prod = (literals.map start).prod *
        (literals.map fun ms => (((mentionsAt trail ms).filterMap Mention.embed?).map
          (exprClass kinds (single block base outer ms trail))).prod).prod := by
      rw [← List.prod_map_mul]
      exact congrArg List.prod (List.map_congr_left fun ms member => (each ms member).2)
    rw [products] at live
    have starts := Starts.prod (fun ms member => (each ms member).1) (left_ne_zero_of_mul live)
    -- What they start from together.
    obtain ⟨c, startsM, productM⟩ := class_body (alike_joined alike) comes
    have liveM : bodyClass kinds (joined block label base outer trail) ≠ 0 := by
      obtain ⟨tameV, same⟩ := exists_taskClass (.body (alike_joined alike)) comes
      rw [bodyClass, same]
      exact Class.of_ne_zero tameV
    rw [productM] at liveM
    have fields (name : String) := startsM.classAt_ne_zero name
    have embeds := prod_joined outer trail h Mention.embed? ?_ (right_ne_zero_of_mul liveM)
    · have bodies (name : String) (opened : (block.mentionsAt (trail ++ label :: base)).any (Mention.opens name) = true) :
          bodyClass kinds (joined block label base outer (name :: trail)) =
            (literals.map (partClass kinds block base outer (name :: trail))).prod := by
        obtain ⟨d, found, inside⟩ := exists_opened ((rearranged_block alike).led _ name) opened
        obtain ⟨u, comes⟩ := exists_inner comes found inside
        obtain ⟨m, said, opens⟩ := List.any_eq_true.mp opened
        obtain ⟨ms, member, said⟩ := (mem_joined h).mp said
        refine ih comes ⟨ms, member, .inr ?_⟩ (live_inner tame (starts.classAt_ne_zero name))
        exact (opens_iff trail).mpr (List.any_eq_true.mpr ⟨m, said, opens⟩)
      have together := startsStruct_joined h alike tame some
      have outline := outline_joined h alike tame fields bodies
      have equal : c = (literals.map start).prod := by
        rw [outline] at startsM
        exact Starts.unique (together ▸ startsM) starts
      rw [productM, products, equal]
      exact congrArg _ embeds
    · intro m w said p everywhere
      cases m <;> cases said
      exact everywhere

end Joined

end StackLattice.Evaluation
