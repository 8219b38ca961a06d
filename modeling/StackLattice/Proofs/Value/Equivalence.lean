import StackLattice.Proofs.Value.Matching

/-!
Equality is symmetric and transitive on values in which no struct has a label twice, and reflexive when no float in them
is equal to nothing.
-/

namespace StackLattice.Value

variable {a b c : Value}

theorem same_self (proper : a.Proper) : a.same a = true := by
  induction a using parts_induction with
  | step a ih =>
    cases a with
    | struct fields =>
      refine (same_struct_iff fields fields).mpr ⟨rfl, fun f member => ⟨f, ?_, ?_, rfl, rfl⟩⟩
      · exact proper.wellFormed.distinct.find?_of_mem member
      · exact ih f.value (List.mem_map_of_mem member) (proper.field member)
    | list items =>
      exact (same_list_iff items items).mpr (List.forall₂_same.mpr fun item member => ih item member (proper.item member))
    | disjunction alternatives =>
      refine (same_disjunction_iff alternatives alternatives).mpr (List.forall₂_same.mpr fun x member => ⟨?_, rfl⟩)
      exact ih x.value (List.mem_map_of_mem member) (proper.alternative member)
    | _ => exact same_self_leaf rfl proper

theorem same_symm (left : a.WellFormed) (right : b.WellFormed) (h : a.same b = true) : b.same a = true := by
  induction a using parts_induction generalizing b with
  | step a ih =>
    cases a with
    | struct xs =>
      obtain ⟨ys, rfl⟩ := eq_struct_of_same h
      refine (same_struct_iff ys xs).mpr ⟨((same_struct_iff xs ys).mp h).1.symm, fun y inRight => ?_⟩
      obtain ⟨x, inLeft, label, same, kind, optional⟩ := exists_left_of_same left.distinct right.distinct h inRight
      refine ⟨x, label ▸ left.distinct.find?_of_mem inLeft, ?_, kind.symm, optional.symm⟩
      exact ih x.value (List.mem_map_of_mem inLeft) (left.field inLeft) (right.field inRight) same
    | list xs =>
      obtain ⟨ys, rfl⟩ := eq_list_of_same h
      obtain ⟨lengths, agree⟩ := List.forall₂_iff_zip.mp ((same_list_iff xs ys).mp h)
      refine (same_list_iff ys xs).mpr (List.Forall₂.flip (List.forall₂_iff_zip.mpr ⟨lengths, fun {x y} member => ?_⟩))
      obtain ⟨inLeft, inRight⟩ := List.of_mem_zip member
      exact ih x inLeft (left.item inLeft) (right.item inRight) (agree member)
    | disjunction xs =>
      obtain ⟨ys, rfl⟩ := eq_disjunction_of_same h
      obtain ⟨lengths, agree⟩ := List.forall₂_iff_zip.mp ((same_disjunction_iff xs ys).mp h)
      refine (same_disjunction_iff ys xs).mpr
        (List.Forall₂.flip (List.forall₂_iff_zip.mpr ⟨lengths, fun {x y} member => ⟨?_, (agree member).2.symm⟩⟩))
      obtain ⟨inLeft, inRight⟩ := List.of_mem_zip member
      exact ih x.value (List.mem_map_of_mem inLeft) (left.alternative inLeft) (right.alternative inRight) (agree member).1
    | _ => rwa [same_comm_leaf rfl] at h

theorem same_trans (wellA : a.WellFormed) (wellB : b.WellFormed) (wellC : c.WellFormed) (first : a.same b = true)
    (second : b.same c = true) : a.same c = true := by
  induction a using parts_induction generalizing b c with
  | step a ih =>
    cases a with
    | struct xs =>
      obtain ⟨ys, rfl⟩ := eq_struct_of_same first
      obtain ⟨zs, rfl⟩ := eq_struct_of_same second
      obtain ⟨length, fields⟩ := (same_struct_iff xs ys).mp first
      obtain ⟨length', fields'⟩ := (same_struct_iff ys zs).mp second
      refine (same_struct_iff xs zs).mpr ⟨length.trans length', fun x inA => ?_⟩
      obtain ⟨y, found, same, kind, optional⟩ := fields x inA
      have inB := Field.mem_of_find? found
      obtain ⟨z, found', same', kind', optional'⟩ := fields' y inB
      have inC := Field.mem_of_find? found'
      refine ⟨z, Field.label_of_find? found ▸ found', ?_, kind.trans kind', optional.trans optional'⟩
      exact ih x.value (List.mem_map_of_mem inA) (wellA.field inA) (wellB.field inB) (wellC.field inC) same same'
    | list xs =>
      obtain ⟨ys, rfl⟩ := eq_list_of_same first
      obtain ⟨zs, rfl⟩ := eq_list_of_same second
      refine (same_list_iff xs zs).mpr
        (forall₂_trans ((same_list_iff xs ys).mp first) ((same_list_iff ys zs).mp second) ?_)
      intro x inA y inB z inC same same'
      exact ih x inA (wellA.item inA) (wellB.item inB) (wellC.item inC) same same'
    | disjunction xs =>
      obtain ⟨ys, rfl⟩ := eq_disjunction_of_same first
      obtain ⟨zs, rfl⟩ := eq_disjunction_of_same second
      refine (same_disjunction_iff xs zs).mpr
        (forall₂_trans ((same_disjunction_iff xs ys).mp first) ((same_disjunction_iff ys zs).mp second) ?_)
      rintro x inA y inB z inC ⟨same, mark⟩ ⟨same', mark'⟩
      exact ⟨ih x.value (List.mem_map_of_mem inA) (wellA.alternative inA) (wellB.alternative inB)
        (wellC.alternative inC) same same', mark.trans mark'⟩
    | _ => rwa [same_congr_leaf rfl first]

end StackLattice.Value
