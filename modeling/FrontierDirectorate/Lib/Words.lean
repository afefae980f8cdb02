import Mathlib

/-!
# Unsigned words

Minima and predecessors of machine words, in terms of their values.
-/
namespace Words

section word

variable {a b : UInt32}

theorem toNat_min (a b : UInt32) : (min a b).toNat = min a.toNat b.toNat := by
  have hmin : min a b = if a ≤ b then a else b := rfl
  rw [hmin]
  by_cases h : a ≤ b
  · rw [if_pos h, min_eq_left (UInt32.le_iff_toNat_le.mp h)]
  · rw [if_neg h, min_eq_right (Nat.le_of_not_le fun hle => h (UInt32.le_iff_toNat_le.mpr hle))]

theorem min_le_left_word (a b : UInt32) : min a b ≤ a := by
  rw [UInt32.le_iff_toNat_le, toNat_min]
  exact Nat.min_le_left _ _

theorem min_le_right_word (a b : UInt32) : min a b ≤ b := by
  rw [UInt32.le_iff_toNat_le, toNat_min]
  exact Nat.min_le_right _ _

theorem pos_of_ne_zero (h : a ≠ 0) : 0 < a.toNat :=
  UInt32.lt_iff_toNat_lt.mp (UInt32.pos_iff_ne_zero.mpr h)

theorem one_le (h : a ≠ 0) : 1 ≤ a := UInt32.le_iff_toNat_le.mpr (pos_of_ne_zero h)

theorem toNat_pred (h : a ≠ 0) : (a - 1).toNat = a.toNat - 1 :=
  UInt32.toNat_sub_of_le a 1 (one_le h)

end word

section long

variable {a b : UInt64}

theorem toNat_min_long (a b : UInt64) : (min a b).toNat = min a.toNat b.toNat := by
  have hmin : min a b = if a ≤ b then a else b := rfl
  rw [hmin]
  by_cases h : a ≤ b
  · rw [if_pos h, min_eq_left (UInt64.le_iff_toNat_le.mp h)]
  · rw [if_neg h, min_eq_right (Nat.le_of_not_le fun hle => h (UInt64.le_iff_toNat_le.mpr hle))]

theorem min_le_left_long (a b : UInt64) : min a b ≤ a := by
  rw [UInt64.le_iff_toNat_le, toNat_min_long]
  exact Nat.min_le_left _ _

theorem pos_of_ne_zero_long (h : a ≠ 0) : 0 < a.toNat :=
  UInt64.lt_iff_toNat_lt.mp (UInt64.pos_iff_ne_zero.mpr h)

theorem one_le_long (h : a ≠ 0) : 1 ≤ a := UInt64.le_iff_toNat_le.mpr (pos_of_ne_zero_long h)

theorem toNat_pred_long (h : a ≠ 0) : (a - 1).toNat = a.toNat - 1 :=
  UInt64.toNat_sub_of_le a 1 (one_le_long h)

end long

end Words
