import StackLattice.Proofs.Value.Disjoin

/-!
Values without the places their fields were declared at. Nothing depends on places but other places: values that
differ in them alone are unified to values, or to conflicts, that differ in them alone.
-/

namespace StackLattice

/-- The position of what stands in no file. -/
def Position.nowhere : Position := ⟨none, 0, 0⟩

namespace Value

mutual

def unplaced : Value → Value
  | struct fields => struct (unplacedFields fields)
  | list items => list (unplacedItems items)
  | disjunction alternatives => disjunction (unplacedAlternatives alternatives)
  | v => v

def unplacedFields : List (Field Value) → List (Field Value)
  | [] => []
  | ⟨label, visibility, optional, position, value⟩ :: rest =>
    ⟨label, visibility, optional, position.map fun _ => .nowhere, value.unplaced⟩ :: unplacedFields rest

def unplacedItems : List Value → List Value
  | [] => []
  | item :: rest => item.unplaced :: unplacedItems rest

def unplacedAlternatives : List (Alternative Value) → List (Alternative Value)
  | [] => []
  | ⟨value, marked⟩ :: rest => ⟨value.unplaced, marked⟩ :: unplacedAlternatives rest

end

end Value

def Field.unplaced (f : Field Value) : Field Value :=
  { f with position := f.position.map fun _ => .nowhere, value := f.value.unplaced }

def Alternative.unplaced (a : Alternative Value) : Alternative Value := { a with value := a.value.unplaced }

namespace Value

theorem unplacedFields_eq_map (fields : List (Field Value)) : unplacedFields fields = fields.map Field.unplaced := by
  induction fields with
  | nil => rfl
  | cons f fields ih => rw [unplacedFields, ih, List.map_cons, Field.unplaced]

theorem unplacedItems_eq_map (items : List Value) : unplacedItems items = items.map unplaced := by
  induction items with
  | nil => rfl
  | cons item items ih => rw [unplacedItems, ih, List.map_cons]

theorem unplacedAlternatives_eq_map (alternatives : List (Alternative Value)) :
    unplacedAlternatives alternatives = alternatives.map Alternative.unplaced := by
  induction alternatives with
  | nil => rfl
  | cons a alternatives ih => rw [unplacedAlternatives, ih, List.map_cons, Alternative.unplaced]

theorem unplaced_struct (fields : List (Field Value)) : (struct fields).unplaced = struct (fields.map Field.unplaced) := by
  rw [unplaced, unplacedFields_eq_map]

theorem unplaced_list (items : List Value) : (list items).unplaced = list (items.map unplaced) := by
  rw [unplaced, unplacedItems_eq_map]

theorem unplaced_disjunction (alternatives : List (Alternative Value)) :
    (disjunction alternatives).unplaced = disjunction (alternatives.map Alternative.unplaced) := by
  rw [unplaced, unplacedAlternatives_eq_map]

theorem unplaced_top : top.unplaced = top := rfl

theorem unplaced_kind (k : Kind) : (kind k).unplaced = kind k := rfl

theorem find?_unplaced (fields : List (Field Value)) (label : String) :
    Field.find? (fields.map Field.unplaced) label = (Field.find? fields label).map Field.unplaced := by
  rw [Field.find?, List.find?_map, Field.find?]
  rfl

theorem anyMarked_unplaced (alternatives : List (Alternative Value)) :
    Alternative.anyMarked (alternatives.map Alternative.unplaced) = Alternative.anyMarked alternatives := by
  rw [Alternative.anyMarked, List.any_map]
  rfl

theorem resolved_unplaced (v : Value) : v.unplaced.resolved = v.resolved.map unplaced := by
  cases v with
  | disjunction alternatives =>
    have marked : (alternatives.map Alternative.unplaced).filter (·.marked) =
        (alternatives.filter (·.marked)).map Alternative.unplaced := List.filter_map
    rw [unplaced_disjunction, resolved, resolved, marked]
    cases alternatives.filter (·.marked) with
    | nil => rfl
    | cons only rest => cases rest <;> rfl
  | _ => rfl

theorem typeName_unplaced (v : Value) : v.unplaced.typeName = v.typeName := by
  cases v <;> rfl

theorem isPlain_unplaced (v : Value) : v.unplaced.isPlain = v.isPlain := by
  cases v <;> rfl

theorem isDisjunction_unplaced (v : Value) : v.unplaced.isDisjunction = v.isDisjunction := by
  cases v <;> rfl

theorem unplaced_of_isScalar {v : Value} (scalar : v.isScalar = true) : v.unplaced = v := by
  cases v <;> first | rfl | cases scalar

theorem unplaced_eq_top {v : Value} : v.unplaced = top ↔ v = top := by
  cases v <;> simp [unplaced]

theorem admits_unplaced (k : Kind) (v : Value) : k.admits v.unplaced = k.admits v := by
  cases v <;> cases k <;> rfl

mutual

theorem render_unplaced (v : Value) : v.unplaced.render = v.render := by
  match v with
  | disjunction alternatives => rw [unplaced, render, render, renderAll_unplaced]
  | top | kind _ | null | bool _ | int _ | float _ | string _ | struct _ | list _ => rfl

theorem renderAll_unplaced (alternatives : List (Alternative Value)) :
    renderAll (unplacedAlternatives alternatives) = renderAll alternatives := by
  match alternatives with
  | [] => rfl
  | ⟨value, marked⟩ :: rest => rw [unplacedAlternatives, renderAll, renderAll, render_unplaced, renderAll_unplaced]

end

mutual

theorem same_unplaced (a b : Value) : a.unplaced.same b.unplaced = a.same b := by
  match a with
  | struct xs =>
    cases b with
    | struct ys =>
      rw [unplaced, unplaced, same, same, sameFields_unplaced, unplacedFields_eq_map, unplacedFields_eq_map,
        List.length_map, List.length_map]
    | _ => simp only [unplaced, same]
  | list xs =>
    cases b with
    | list ys => rw [unplaced, unplaced, same, same, sameItems_unplaced]
    | _ => simp only [unplaced, same]
  | disjunction xs =>
    cases b with
    | disjunction ys => rw [unplaced, unplaced, same, same, sameAlternatives_unplaced]
    | _ => simp only [unplaced, same]
  | top | kind _ | null | bool _ | int _ | float _ | string _ => cases b <;> simp only [unplaced, same]

theorem sameFields_unplaced (xs ys : List (Field Value)) :
    sameFields (unplacedFields xs) (unplacedFields ys) = sameFields xs ys := by
  match xs with
  | [] => rw [unplacedFields, sameFields, sameFields]
  | ⟨label, visibility, optional, position, value⟩ :: rest =>
    rw [unplacedFields, sameFields, sameFields, sameFields_unplaced rest ys, unplacedFields_eq_map, find?_unplaced]
    cases Field.find? ys label with
    | none => rfl
    | some y =>
      simp only [Option.map_some, Field.unplaced]
      rw [same_unplaced value y.value]

theorem sameItems_unplaced (xs ys : List Value) : sameItems (unplacedItems xs) (unplacedItems ys) = sameItems xs ys := by
  match xs, ys with
  | [], [] => rfl
  | [], _ :: _ | _ :: _, [] => rw [unplacedItems, unplacedItems, sameItems, sameItems] <;> simp
  | x :: xs, y :: ys => rw [unplacedItems, unplacedItems, sameItems, sameItems, same_unplaced x y, sameItems_unplaced xs ys]

theorem sameAlternatives_unplaced (xs ys : List (Alternative Value)) :
    sameAlternatives (unplacedAlternatives xs) (unplacedAlternatives ys) = sameAlternatives xs ys := by
  match xs, ys with
  | [], [] => rfl
  | [], ⟨_, _⟩ :: _ | ⟨_, _⟩ :: _, [] => rw [unplacedAlternatives, unplacedAlternatives, sameAlternatives, sameAlternatives] <;> simp
  | ⟨value, marked⟩ :: xs, ⟨value', marked'⟩ :: ys =>
    rw [unplacedAlternatives, unplacedAlternatives, sameAlternatives, sameAlternatives, same_unplaced value value',
      sameAlternatives_unplaced xs ys]

end

end Value

def Clash.unplaced : Clash → Clash
  | values left right => values left.unplaced right.unplaced
  | lengths left right => lengths left right
  | noAlternative => noAlternative
  | everyAlternative first => everyAlternative first.unplaced

theorem Clash.message_values (left right : Value) :
    (values left right).message = "conflicting values " ++ left.render ++ " and " ++ right.render ++
      if left.typeName = right.typeName then ""
      else " (mismatched types " ++ left.typeName ++ " and " ++ right.typeName ++ ")" := rfl

theorem Clash.message_everyAlternative (first : Clash) :
    (everyAlternative first).message = "empty disjunction: " ++ first.message := rfl

theorem Clash.message_unplaced (c : Clash) : c.unplaced.message = c.message := by
  induction c with
  | values left right =>
    rw [unplaced, message_values, message_values, Value.typeName_unplaced, Value.typeName_unplaced,
      Value.render_unplaced, Value.render_unplaced]
  | lengths _ _ | noAlternative => rfl
  | everyAlternative first ih => rw [unplaced, message_everyAlternative, message_everyAlternative, ih]

def Conflict.unplaced (c : Conflict) : Conflict :=
  { c with clash := c.clash.unplaced, position := c.position.map fun _ => .nowhere }

/-- What is made of values, without places. -/
def Conflict.unplacedOr {α : Type} (f : α → α) : Except Conflict α → Except Conflict α
  | .ok value => .ok (f value)
  | .error c => .error c.unplaced

theorem Conflict.within_unplaced (c : Conflict) (label : String) (position : Option Position) :
    (c.within label position).unplaced = c.unplaced.within label (position.map fun _ => .nowhere) := by
  simp only [unplaced, within, Option.map_or]

namespace Alternative

theorem add_unplaced (a : Alternative Value) (us : List (Alternative Value)) :
    add a.unplaced (us.map unplaced) = (add a us).map unplaced := by
  induction us with
  | nil => rfl
  | cons u us ih =>
    have same : u.unplaced.value.same a.unplaced.value = u.value.same a.value := Value.same_unplaced u.value a.value
    rw [List.map_cons, add, add, same, ih]
    split <;> rfl

theorem dedup_unplaced (alternatives : List (Alternative Value)) :
    dedup (alternatives.map unplaced) = (dedup alternatives).map unplaced := by
  induction alternatives using List.reverseRecOn with
  | nil => rfl
  | append_singleton alternatives last ih =>
    rw [List.map_append, List.map_singleton, dedup_append_singleton, dedup_append_singleton, ih, add_unplaced]

theorem flatten_unplaced (a : Alternative Value) : a.unplaced.flatten = a.flatten.map unplaced := by
  obtain ⟨value, marked⟩ := a
  cases value with
  | disjunction inner =>
    simp only [flatten, unplaced, Value.unplaced_disjunction, Value.anyMarked_unplaced, List.map_map]
    rfl
  | _ => rfl

theorem ofValue_unplaced (v : Value) : ofValue v.unplaced = (ofValue v).map unplaced := by
  cases v with
  | disjunction alternatives => rw [Value.unplaced_disjunction, ofValue, ofValue]
  | _ => rfl

end Alternative

namespace Value

theorem ofDistinct_unplaced (alternatives : List (Alternative Value)) :
    ofDistinct (alternatives.map Alternative.unplaced) = (ofDistinct alternatives).unplaced := by
  match alternatives with
  | [only] => rfl
  | [] => rfl
  | a :: b :: rest =>
    rw [List.map_cons, List.map_cons, ofDistinct, ofDistinct, unplaced_disjunction]
    · simp only [← List.map_cons, List.all_map]
      congr 1
      rw [apply_ite (List.map Alternative.unplaced), List.map_map, List.map_map]
      rfl
    · simp
    · simp

theorem disjoin_unplaced (alternatives : List (Alternative Value)) :
    disjoin (alternatives.map Alternative.unplaced) = (disjoin alternatives).unplaced := by
  have flat : (alternatives.map Alternative.unplaced).flatMap Alternative.flatten =
      (alternatives.flatMap Alternative.flatten).map Alternative.unplaced := by
    rw [List.flatMap_map, List.map_flatMap]
    exact congrArg (alternatives.flatMap ·) (funext Alternative.flatten_unplaced)
  rw [disjoin, disjoin, flat, Alternative.dedup_unplaced, ofDistinct_unplaced]

def Outcome.unplaced (o : Outcome) : Outcome := { o with result := Conflict.unplacedOr Value.unplaced o.result }

theorem settle_unplaced (outcomes : List Outcome) :
    settle (outcomes.map Outcome.unplaced) = Conflict.unplacedOr unplaced (settle outcomes) := by
  have alternatives : (outcomes.map Outcome.unplaced).filterMap Outcome.alternative? =
      (outcomes.filterMap Outcome.alternative?).map Alternative.unplaced := by
    rw [List.filterMap_map, List.map_filterMap]
    congr 1
    funext ⟨result, marked⟩
    cases result <;> rfl
  have conflicts : (outcomes.map Outcome.unplaced).findSome? Outcome.conflict? =
      (outcomes.findSome? Outcome.conflict?).map Conflict.unplaced := by
    rw [List.findSome?_map, List.map_findSome?]
    congr 1
    funext ⟨result, marked⟩
    cases result <;> rfl
  rw [settle, settle, alternatives, conflicts, List.length_map]
  cases found : outcomes.filterMap Outcome.alternative? with
  | nil =>
    rw [List.map_nil]
    cases outcomes.findSome? Outcome.conflict? <;> by_cases several : 1 < outcomes.length <;>
      simp only [several, if_true, if_false, Option.map_some, Option.map_none] <;> rfl
  | cons a rest =>
    rw [List.map_cons]
    simp only [← List.map_cons, disjoin_unplaced]
    rfl

theorem counts_unplaced (alternatives : List (Alternative Value)) (a : Alternative Value) :
    counts (alternatives.map Alternative.unplaced) a.unplaced = counts alternatives a := by
  rw [counts, counts, anyMarked_unplaced]
  rfl

/-- Values are unified without places to what they are unified to, without places. -/
def Unplaced (a b : Value) : Prop := a.unplaced.unify b.unplaced = Conflict.unplacedOr unplaced (a.unify b)

theorem pairings_unplaced {xs ys : List (Alternative Value)} (each : ∀ x ∈ xs, ∀ y ∈ ys, Unplaced x.value y.value) :
    pairings (xs.map Alternative.unplaced) (ys.map Alternative.unplaced) = (pairings xs ys).map Outcome.unplaced := by
  rw [pairings, pairings, List.flatMap_map, List.map_flatMap]
  refine List.flatMap_congr fun x left => ?_
  rw [List.map_map, List.map_map]
  refine List.map_congr_left fun y right => ?_
  simp only [Function.comp_apply, counts_unplaced]
  rw [Outcome.unplaced, ← each x left y right]
  rfl

theorem joinField_unplaced (f g : Field Value) (v : Value) :
    joinField f.unplaced g.unplaced v.unplaced = (joinField f g v).unplaced := by
  simp only [joinField, Field.unplaced, Option.map_or]

theorem mergeFields_unplaced (left met : List (Field Value)) :
    mergeFields (left.map Field.unplaced) (met.map Field.unplaced) = (mergeFields left met).map Field.unplaced := by
  rw [mergeFields, mergeFields, List.map_append, List.map_map, List.map_map, List.filter_map]
  congr 1
  · refine List.map_congr_left fun f _ => ?_
    rw [Function.comp_apply, find?_unplaced]
    exact Option.getD_map ..
  · congr 1
    refine List.filter_congr fun g _ => ?_
    rw [Function.comp_apply, find?_unplaced, Option.isNone_map]
    rfl

theorem meetField_unplaced {xs : List (Field Value)} {g : Field Value} (each : ∀ f ∈ xs, Unplaced f.value g.value) :
    meetField (xs.map Field.unplaced) g.unplaced = Conflict.unplacedOr Field.unplaced (meetField xs g) := by
  have label : g.unplaced.label = g.label := rfl
  rw [meetField, meetField, label, find?_unplaced]
  cases found : Field.find? xs g.label with
  | none => rfl
  | some f =>
    have unified : f.unplaced.value.unify g.unplaced.value = Conflict.unplacedOr unplaced (f.value.unify g.value) :=
      each f (Field.mem_of_find? found)
    simp only [Option.map_some, unified]
    cases f.value.unify g.value with
    | error c =>
      simp only [Conflict.unplacedOr, Conflict.within_unplaced, Option.map_or]
      rfl
    | ok v =>
      simp only [Conflict.unplacedOr]
      rw [joinField_unplaced]

theorem unifyFields_unplaced {xs ys : List (Field Value)} (each : ∀ f ∈ xs, ∀ g ∈ ys, Unplaced f.value g.value) :
    unifyFields (xs.map Field.unplaced) (ys.map Field.unplaced) =
      Conflict.unplacedOr (List.map Field.unplaced) (unifyFields xs ys) := by
  rw [unifyFields_eq_mapM, unifyFields_eq_mapM]
  induction ys with
  | nil => rfl
  | cons g ys ih =>
    have first := meetField_unplaced fun f left => each f left g List.mem_cons_self
    have rest := ih fun f left g right => each f left g (List.mem_cons_of_mem _ right)
    rw [List.map_cons, List.mapM_cons, List.mapM_cons, first, rest]
    cases meetField xs g with
    | error c => rfl
    | ok m => cases ys.mapM (meetField xs) <;> rfl

theorem unifyItems_unplaced (index : Nat) {xs ys : List Value} (each : ∀ x ∈ xs, ∀ y ∈ ys, Unplaced x y) :
    unifyItems index (xs.map unplaced) (ys.map unplaced) =
      Conflict.unplacedOr (List.map unplaced) (unifyItems index xs ys) := by
  induction xs generalizing index ys with
  | nil => rw [List.map_nil, unifyItems, unifyItems] <;> simp [Conflict.unplacedOr]
  | cons x xs ih =>
    cases ys with
    | nil => rw [List.map_nil, unifyItems, unifyItems] <;> simp [Conflict.unplacedOr]
    | cons y ys =>
      have first : Unplaced x y := each x List.mem_cons_self y List.mem_cons_self
      have rest := ih (index + 1) fun x left y right =>
        each x (List.mem_cons_of_mem _ left) y (List.mem_cons_of_mem _ right)
      rw [List.map_cons, List.map_cons, unifyItems, unifyItems, first, rest]
      cases x.unify y with
      | error c =>
        simp only [Conflict.unplacedOr, Conflict.within_unplaced]
        rfl
      | ok v => cases unifyItems (index + 1) xs ys <;> rfl

/-- Where fields are declared does not matter to unification. -/
theorem unify_unplaced (a b : Value) : Unplaced a b := by
  induction a, b using pair_induction with
  | step a b ih =>
    have rule := unify_rule a b
    unfold Unplaced
    generalize a.unify b = result at rule
    cases rule with
    | topLeft => rw [unplaced_top, unify]; rfl
    | topRight =>
      by_cases left : a = top
      · rw [left, unplaced_top, unify]; rfl
      · rw [unplaced_top, unify]
        · rfl
        · exact fun h => left (unplaced_eq_top.mp h)
    | alternatives _ _ left right either =>
      have left' := mt unplaced_eq_top.mp left
      have right' := mt unplaced_eq_top.mp right
      rw [unify_of_isDisjunction left' right' (by rwa [isDisjunction_unplaced, isDisjunction_unplaced]),
        Alternative.ofValue_unplaced, Alternative.ofValue_unplaced, pairings_unplaced, settle_unplaced]
      intro x inLeft y inRight
      exact ih _ _ (sizeOf_alternatives_lt either inLeft inRight)
    | kinds _ _ _ meet | kindsApart _ _ meet => rw [unplaced_kind, unplaced_kind, unify, meet]; rfl
    | kindLeft k _ plain admits | kindLeftApart k _ plain admits =>
      rw [unplaced_kind, unify_kind_left k (by rwa [isPlain_unplaced]), admits_unplaced, admits]; rfl
    | kindRight _ k plain admits | kindRightApart _ k plain admits =>
      rw [unplaced_kind, unify_kind_right k (by rwa [isPlain_unplaced]), admits_unplaced, admits]; rfl
    | structs xs ys met fields =>
      have each := unifyFields_unplaced fun f left g right => ih f.value g.value (sizeOf_fields_lt left right)
      rw [unplaced_struct, unplaced_struct, unify, each, fields]
      simp only [Conflict.unplacedOr, Bind.bind, Except.bind, Pure.pure, Except.pure, mergeFields_unplaced,
        unplaced_struct]
    | structsApart xs ys c fields =>
      have each := unifyFields_unplaced fun f left g right => ih f.value g.value (sizeOf_fields_lt left right)
      rw [unplaced_struct, unplaced_struct, unify, each, fields]
      rfl
    | lists xs ys met lengths items =>
      have each := unifyItems_unplaced 0 fun x left y right => ih x y (sizeOf_items_lt left right)
      rw [unplaced_list, unplaced_list, unify, List.length_map, List.length_map, if_pos lengths, each, items]
      simp only [Conflict.unplacedOr, Bind.bind, Except.bind, Pure.pure, Except.pure, unplaced_list]
    | listsApart xs ys lengths c items =>
      have each := unifyItems_unplaced 0 fun x left y right => ih x y (sizeOf_items_lt left right)
      rw [unplaced_list, unplaced_list, unify, List.length_map, List.length_map, if_pos lengths, each, items]
      rfl
    | lengthsApart xs ys lengths =>
      rw [unplaced_list, unplaced_list, unify, List.length_map, List.length_map, if_neg lengths]
      rfl
    | equal _ _ left right same =>
      rw [unplaced_of_isScalar left, unplaced_of_isScalar right, unify_scalars left right, if_pos same,
        Conflict.unplacedOr, unplaced_of_isScalar left]
    | unequal _ _ left right same =>
      rw [unplaced_of_isScalar left, unplaced_of_isScalar right, unify_scalars left right, same, if_neg Bool.false_ne_true,
        Conflict.unplacedOr, Conflict.unplaced, Clash.unplaced, unplaced_of_isScalar left, unplaced_of_isScalar right]
      rfl
    | shapesApart _ _ left right shapes =>
      rw [unify_shapes (by rwa [isPlain_unplaced]) (by rwa [isPlain_unplaced])
        (by rwa [typeName_unplaced, typeName_unplaced])]
      rfl

end Value

end StackLattice
