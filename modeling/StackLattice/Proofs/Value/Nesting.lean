import StackLattice.Proofs.Value.Disjoin

/-!
How deep structs and lists are nested in a value. Unification does not nest them any deeper.
-/

namespace StackLattice.Value

/-- The level that a struct or a list is. -/
def level : Value → Nat
  | struct _ | list _ => 1
  | _ => 0

/-- The most levels of structs and lists in a value. -/
def nesting (v : Value) : Nat := (v.parts.attach.map fun part => nesting part.1).foldr max 0 + v.level
termination_by sizeOf v
decreasing_by exact sizeOf_lt_of_mem_parts part.2

theorem foldr_max_le_iff {ns : List Nat} {n : Nat} : ns.foldr max 0 ≤ n ↔ ∀ m ∈ ns, m ≤ n := by
  induction ns with
  | nil => simp
  | cons m ns ih => rw [List.foldr_cons, Nat.max_le, ih, List.forall_mem_cons]

variable {n : Nat}

theorem nesting_le_iff {v : Value} : v.nesting ≤ n ↔ v.level ≤ n ∧ ∀ part ∈ v.parts, part.nesting + v.level ≤ n := by
  rw [nesting, List.attach_map_val]
  constructor
  · intro h
    refine ⟨by omega, fun part member => ?_⟩
    have : (v.parts.map nesting).foldr max 0 ≤ n - v.level := by omega
    have := foldr_max_le_iff.mp this _ (List.mem_map_of_mem member)
    omega
  · rintro ⟨here, inside⟩
    have : (v.parts.map nesting).foldr max 0 ≤ n - v.level := by
      rw [foldr_max_le_iff, List.forall_mem_map]
      intro part member
      have := inside part member
      omega
    omega

theorem nesting_le_leaf {v : Value} (leaf : v.isLeaf = true) : v.nesting ≤ n := by
  rw [nesting_le_iff]
  cases v <;> first
    | exact ⟨Nat.zero_le n, fun _ impossible => absurd impossible List.not_mem_nil⟩
    | cases leaf

theorem nesting_le_struct {fields : List (Field Value)} :
    (struct fields).nesting ≤ n + 1 ↔ ∀ f ∈ fields, f.value.nesting ≤ n := by
  simp [nesting_le_iff, level, parts]

theorem nesting_le_list {items : List Value} : (list items).nesting ≤ n + 1 ↔ ∀ item ∈ items, item.nesting ≤ n := by
  simp [nesting_le_iff, level, parts]

theorem nesting_le_disjunction {alternatives : List (Alternative Value)} :
    (disjunction alternatives).nesting ≤ n ↔ ∀ a ∈ alternatives, a.value.nesting ≤ n := by
  simp [nesting_le_iff, level, parts]

/-- A bound of the nesting is one everywhere inside. -/
theorem everywhere_nesting_le {v : Value} (h : v.nesting ≤ n) : v.Everywhere (·.nesting ≤ n) := by
  induction v using parts_induction with
  | step v ih =>
    refine .intro h fun part member => ih part member ?_
    have := (nesting_le_iff.mp h).2 part member
    omega

theorem nesting_le_ofDistinct {alternatives : List (Alternative Value)} (h : ∀ a ∈ alternatives, a.value.nesting ≤ n) :
    (ofDistinct alternatives).nesting ≤ n := by
  unfold ofDistinct
  split
  · exact h _ List.mem_cons_self
  · rw [nesting_le_disjunction]
    split
    · rwa [List.forall_mem_map]
    · exact h

theorem nesting_le_disjoin {alternatives : List (Alternative Value)} (h : ∀ a ∈ alternatives, a.value.nesting ≤ n) :
    (disjoin alternatives).nesting ≤ n := by
  refine nesting_le_ofDistinct fun u distinct => ?_
  obtain ⟨i, member, same⟩ := Alternative.value_of_mem_dedup distinct
  rw [same]
  exact (everywhere_of_mem_flatMap (fun a inside => everywhere_nesting_le (h a inside)) member).here

/-- Two values are unified to one that is nested no deeper than they are. -/
theorem nesting_unify {a b v : Value} (left : a.nesting ≤ n) (right : b.nesting ≤ n) (h : a.unify b = .ok v) :
    v.nesting ≤ n := by
  refine unify_induction (M := fun a b v => ∀ n, a.nesting ≤ n → b.nesting ≤ n → v.nesting ≤ n)
    (fun _ _ _ left _ => left) (fun _ _ _ _ right => right) (fun _ _ _ _ _ _ => nesting_le_leaf rfl)
    ?lists ?structs ?disjunctions h n left right
  case lists =>
    intro xs ys met ih n left right
    have positive : 1 ≤ n := (nesting_le_iff.mp left).1
    obtain ⟨n, rfl⟩ := Nat.exists_eq_add_of_le' positive
    rw [nesting_le_list] at left right ⊢
    intro item member
    obtain ⟨x, inLeft, y, inRight, keeps⟩ := ih item member
    exact keeps n (left x inLeft) (right y inRight)
  case structs =>
    intro xs ys met fields ih n left right
    have positive : 1 ≤ n := (nesting_le_iff.mp left).1
    obtain ⟨n, rfl⟩ := Nat.exists_eq_add_of_le' positive
    rw [nesting_le_struct] at left right ⊢
    intro f merged
    obtain inLeft | inRight | ⟨x, inLeft, y, inRight, keeps⟩ := ih f merged
    · exact left f inLeft
    · exact right f inRight
    · exact keeps n (left x inLeft) (right y inRight)
  case disjunctions =>
    intro a b alternatives _ _ ih n left right
    refine nesting_le_disjoin fun c member => ?_
    obtain ⟨x, inLeft, y, inRight, keeps, marked⟩ := ih c member
    exact keeps n (everywhere_of_mem_ofValue (everywhere_nesting_le left) inLeft).here
      (everywhere_of_mem_ofValue (everywhere_nesting_le right) inRight).here

end StackLattice.Value
