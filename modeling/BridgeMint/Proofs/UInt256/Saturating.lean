import BridgeMint.Proofs.UInt256.Product

/-!
# Arithmetic as that of the integers

Addition, subtraction, multiplication and comparison of 256-bit numbers are those of the integers
they stand for.  The checked operations answer the exact result when it is in range, and the
operators answer it cut off at the bounds: a sum or a product that is too great becomes the greatest
value, and a negative difference becomes zero.
-/

namespace BridgeMint

namespace UInt256

variable (a b : UInt256)

/-! ## Checked results -/

theorem map_toNat_checkedAdd :
    (a.checkedAdd b).map toNat =
      if a.toNat + b.toNat < size then some (a.toNat + b.toNat) else none :=
  map_toNat_of_exact fun _ => checkedAdd_eq_some_iff

theorem map_toNat_checkedMul :
    (a.checkedMul b).map toNat =
      if a.toNat * b.toNat < size then some (a.toNat * b.toNat) else none :=
  map_toNat_of_exact fun _ => checkedMul_eq_some_iff

/-- The checked difference as a number. -/
theorem map_toNat_checkedSub :
    (a.checkedSub b).map toNat = if b.toNat ≤ a.toNat then some (a.toNat - b.toNat) else none := by
  cases hdifference : a.checkedSub b with
  | none =>
    rw [checkedSub_eq_none_iff] at hdifference
    rw [if_neg (Nat.not_le_of_lt hdifference), Option.map_none]
  | some difference =>
    rw [checkedSub_eq_some_iff] at hdifference
    rw [if_pos (by omega), Option.map_some, ← hdifference, Nat.add_sub_cancel]

theorem checkedMul_comm : a.checkedMul b = b.checkedMul a := by
  apply Option.ext
  intro c
  rw [checkedMul_eq_some_iff, checkedMul_eq_some_iff, Nat.mul_comm]

/-- Whatever can be taken away can be put back. -/
theorem checkedSub_bind_checkedAdd :
    ((a.checkedSub b).bind fun difference => difference.checkedAdd b) =
      if b ≤ a then some a else none := by
  cases hdifference : a.checkedSub b with
  | none =>
    rw [checkedSub_eq_none_iff, ← lt_iff_toNat_lt] at hdifference
    have hnot : ¬ b ≤ a := by
      rw [le_iff_toNat_le, Nat.not_le]
      exact lt_iff_toNat_lt.mp hdifference
    rw [if_neg hnot, Option.bind_none]
  | some difference =>
    rw [checkedSub_eq_some_iff] at hdifference
    have hle : b ≤ a := le_iff_toNat_le.mpr (by omega)
    rw [if_pos hle, Option.bind_some, checkedAdd_eq_some_iff]
    exact hdifference

/-! ## Operators -/

theorem toNat_saturatingAdd :
    (a.saturatingAdd b).toNat = min (a.toNat + b.toNat) (size - 1) :=
  toNat_getD_max_of_exact fun _ => checkedAdd_eq_some_iff

theorem toNat_saturatingSub : (a.saturatingSub b).toNat = a.toNat - b.toNat := by
  rw [saturatingSub, ← Option.getD_map toNat, map_toNat_checkedSub, toNat_zero]
  split
  · rw [Option.getD_some]
  · rw [Option.getD_none]
    omega

/-- What was taken away is put back; where nothing was left, only what is put back remains. -/
theorem sub_add (a b : UInt256) : a - b + b = if b ≤ a then a else b := by
  have ha := a.toNat_lt_size
  have hb := b.toNat_lt_size
  have hsum : (a - b + b).toNat = min (a.toNat - b.toNat + b.toNat) (size - 1) := by
    rw [← toNat_saturatingSub]
    exact toNat_saturatingAdd (a - b) b
  -- The sum is cut off nowhere: it is one of the two numbers.
  rw [← toNat_inj, hsum]
  split
  case isTrue hle =>
    rw [le_iff_toNat_le] at hle
    omega
  case isFalse hnot =>
    rw [le_iff_toNat_le] at hnot
    omega

/-! ## Limbs -/

/-- Numbers with the same limbs are the same, and so are the integers they stand for. -/
theorem limbs_inj : a.limbs = b.limbs ↔ a.toNat = b.toNat := by
  rw [toNat_inj]
  obtain ⟨a0, a1, a2, a3⟩ := a
  obtain ⟨b0, b1, b2, b3⟩ := b
  simp [limbs]

/-- Addition, subtraction and order are those of the integers: checked sums and differences are
exact when they are in range, with no borrow left over at the top, and nothing otherwise; numbers
compare as their integers and are equal when these are; the saturating operations and the operators
cut the integer off at the bounds; and what can be taken away can be put back. -/
theorem arithmetic_of_integers (a b : UInt256) :
    ((a.checkedAdd b).map toNat =
      if a.toNat + b.toNat < 2 ^ 256 then some (a.toNat + b.toNat) else none) ∧
    ((a.checkedSub b).map toNat =
      if b.toNat ≤ a.toNat then some (a.toNat - b.toNat) else none) ∧
    ((borrowingSub a b).2 = decide (a.toNat < b.toNat)) ∧
    (compare a b = compare a.toNat b.toNat ∧ (a < b ↔ a.toNat < b.toNat) ∧
      (a ≤ b ↔ a.toNat ≤ b.toNat)) ∧
    ((a.limbs = b.limbs ↔ a.toNat = b.toNat) ∧ (a = b ↔ a.toNat = b.toNat)) ∧
    ((a.saturatingAdd b).toNat = min (a.toNat + b.toNat) (2 ^ 256 - 1) ∧
      (a + b).toNat = min (a.toNat + b.toNat) (2 ^ 256 - 1)) ∧
    (((a.saturatingSub b).toNat : Int) = Max.max ((a.toNat : Int) - b.toNat) 0 ∧
      ((a - b).toNat : Int) = Max.max ((a.toNat : Int) - b.toNat) 0) ∧
    (a - b + b = if b ≤ a then a else b) ∧
    (((a.checkedSub b).bind fun difference => difference.checkedAdd b) =
      if b ≤ a then some a else none) := by
  have hdifference : ((a.saturatingSub b).toNat : Int) = Max.max ((a.toNat : Int) - b.toNat) 0 := by
    rw [toNat_saturatingSub]
    omega
  refine ⟨?sum, ?difference, ?borrow, ?order, ?equality, ?saturatedSum, ?saturatedDifference,
    ?putBack, ?putBackChecked⟩
  case sum => exact map_toNat_checkedAdd a b
  case difference => exact map_toNat_checkedSub a b
  case borrow => exact borrowingSub_borrow a b
  case order => exact ⟨compare_eq_compare_toNat a b, lt_iff_toNat_lt, le_iff_toNat_le⟩
  case equality => exact ⟨limbs_inj a b, toNat_inj.symm⟩
  case saturatedSum => exact ⟨toNat_saturatingAdd a b, toNat_saturatingAdd a b⟩
  case saturatedDifference => exact ⟨hdifference, hdifference⟩
  case putBack => exact sub_add a b
  case putBackChecked => exact checkedSub_bind_checkedAdd a b

end UInt256

end BridgeMint
