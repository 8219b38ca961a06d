import Mathlib.Data.String.Basic

/-!
Texts are ordered by their characters. The order of their UTF-8 bytes is the same.
-/

namespace StackLattice.Text

/-- The bytes that a text is stored as. -/
def utf8 (s : String) : List UInt8 := s.toList.flatMap String.utf8EncodeChar

/-- The bytes of a character that comes before another come before those of the other, whatever follows. -/
theorem encode_lt_encode {c d : Char} (h : c < d) (after after' : List UInt8) :
    String.utf8EncodeChar c ++ after < String.utf8EncodeChar d ++ after' := by
  have below : c.val.toNat < d.val.toNat := UInt32.lt_iff_toNat_lt.mp h
  have bound : d.val.toNat < 0x110000 := by
    have := d.valid
    simp only [UInt32.isValidChar, Nat.isValidChar] at this
    omega
  simp only [String.utf8EncodeChar]
  generalize c.val.toNat = v, d.val.toNat = w at below bound
  have quarters (n : Nat) : n / 4096 = n / 64 / 64 ∧ n / 262144 = n / 64 / 64 / 64 := by omega
  simp only [quarters]
  split <;> split <;> (try split) <;> (try split) <;> (try split) <;> (try split)
  all_goals first
    | omega
    | (simp only [List.cons_append, List.nil_append, List.cons_lt_cons_iff, UInt8.lt_iff_toNat_lt,
        ← UInt8.toNat_inj, UInt8.toNat_ofNat']
       omega)

theorem encode_ne_nil (c : Char) : String.utf8EncodeChar c ≠ [] := by
  simp only [String.utf8EncodeChar]
  split
  · simp
  · split
    · simp
    · split <;> simp

theorem encode_lt_encode_of_lt {cs ds : List Char} (h : cs < ds) :
    cs.flatMap String.utf8EncodeChar < ds.flatMap String.utf8EncodeChar := by
  induction cs generalizing ds with
  | nil =>
    cases ds with
    | nil => cases h
    | cons d ds =>
      rw [List.flatMap_nil, List.flatMap_cons]
      cases bytes : String.utf8EncodeChar d with
      | nil => exact absurd bytes (encode_ne_nil d)
      | cons b bs => exact List.nil_lt_cons _ _
  | cons c cs ih =>
    cases ds with
    | nil => cases h
    | cons d ds =>
      rw [List.flatMap_cons, List.flatMap_cons]
      rcases List.cons_lt_cons_iff.mp h with first | ⟨rfl, rest⟩
      · exact encode_lt_encode first _ _
      · exact List.append_left_lt (ih rest)

/-- Texts in the order of their characters are in the order of their bytes. -/
theorem lt_iff_utf8_lt {s t : String} : s < t ↔ utf8 s < utf8 t := by
  rw [String.lt_iff_toList_lt]
  refine ⟨encode_lt_encode_of_lt, fun bytes => ?_⟩
  rcases lt_trichotomy s t with before | rfl | behind
  · exact before
  · exact absurd bytes (List.lt_irrefl _)
  · exact absurd bytes (List.lt_asymm (encode_lt_encode_of_lt (String.lt_iff_toList_lt.mp behind)))

end StackLattice.Text
