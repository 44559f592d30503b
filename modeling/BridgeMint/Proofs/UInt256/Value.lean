import BridgeMint.UInt256.Basic
import Mathlib.Tactic.Ring

/-!
# Numbers of 256 bits as natural numbers

A value of four limbs stands for one natural number below `2 ^ 256`, and different values stand for
different numbers.  The order of values is the order of the numbers, and the checked sum and
difference answer the exact result whenever there is one that fits.
-/

namespace BridgeMint

namespace UInt256

/-- The number of values: two to the power of 256. -/
def size : Nat := 2 ^ 256

theorem size_eq : size = UInt64.size * (UInt64.size * (UInt64.size * UInt64.size)) := by
  simp [size, UInt64.size]

/-! ## Values and numbers -/

/-- Every value is below two to the power of 256. -/
theorem toNat_lt_size (a : UInt256) : a.toNat < size := by
  have h0 := a.limb0.toNat_lt
  have h1 := a.limb1.toNat_lt
  have h2 := a.limb2.toNat_lt
  have h3 := a.limb3.toNat_lt
  simp only [toNat, size, UInt64.size]
  omega

/-- Different values stand for different numbers. -/
theorem toNat_inj {a b : UInt256} : a.toNat = b.toNat ↔ a = b := by
  refine ⟨fun h => ?_, fun h => h ▸ rfl⟩
  have ha0 := a.limb0.toNat_lt
  have ha1 := a.limb1.toNat_lt
  have ha2 := a.limb2.toNat_lt
  have hb0 := b.limb0.toNat_lt
  have hb1 := b.limb1.toNat_lt
  have hb2 := b.limb2.toNat_lt
  -- Each limb is the digit of the number at its place, as the digits below the top one are bounded.
  simp only [toNat, UInt64.size] at h
  obtain ⟨a0, a1, a2, a3⟩ := a
  obtain ⟨b0, b1, b2, b3⟩ := b
  simp only [mk.injEq, ← UInt64.toNat_inj]
  simp only at *
  omega

@[simp] theorem toNat_ofUInt64 (n : UInt64) : (ofUInt64 n).toNat = n.toNat := by
  simp [ofUInt64, toNat]

theorem toNat_ofNat_of_lt {n : Nat} (h : n < size) : (ofNat n).toNat = n := by
  simp only [toNat, ofNat, UInt64.toNat_ofNat', UInt64.size]
  simp only [size] at h
  omega

@[simp] theorem toNat_zero : (0 : UInt256).toNat = 0 := rfl

theorem toNat_max : max.toNat = size - 1 := by
  decide

/-! ## Exact answers -/

section Exact

variable {answer : Option UInt256} {n : Nat}

/-- An answer that can only be one number is that number, if it fits. -/
theorem eq_some_of_exact (h : ∀ c, answer = some c ↔ n = c.toNat) (hn : n < size) :
    answer = some (ofNat n) :=
  (h _).mpr (toNat_ofNat_of_lt hn).symm

/-- There is no answer exactly if the number does not fit. -/
theorem eq_none_iff_of_exact (h : ∀ c, answer = some c ↔ n = c.toNat) :
    answer = none ↔ size ≤ n := by
  constructor
  · intro hnone
    by_contra hlt
    have hsome := eq_some_of_exact h (Nat.lt_of_not_le hlt)
    rw [hnone] at hsome
    cases hsome
  · intro hover
    cases hanswer : answer with
    | none => rfl
    | some c =>
      have hc := (h c).mp hanswer
      have hlt := c.toNat_lt_size
      omega

/-- The number of such an answer, if there is one. -/
theorem map_toNat_of_exact (h : ∀ c, answer = some c ↔ n = c.toNat) :
    answer.map toNat = if n < size then some n else none := by
  split
  case isTrue hfits => rw [eq_some_of_exact h hfits, Option.map_some, toNat_ofNat_of_lt hfits]
  case isFalse hover =>
    rw [(eq_none_iff_of_exact h).mpr (Nat.le_of_not_lt hover), Option.map_none]

/-- With the greatest value in place of no answer, the number is cut off there. -/
theorem toNat_getD_max_of_exact (h : ∀ c, answer = some c ↔ n = c.toNat) :
    (answer.getD max).toNat = min n (size - 1) := by
  rw [← Option.getD_map toNat, map_toNat_of_exact h, toNat_max]
  split
  · rw [Option.getD_some]
    omega
  · rw [Option.getD_none]
    omega

end Exact

/-! ## Order -/

/-- Of two numbers with one more digit, the low digits decide if what stands above them agrees. -/
theorem compare_add_mul {base low low' : Nat} (hlow : low < base) (hlow' : low' < base)
    (high high' : Nat) :
    compare (low + base * high) (low' + base * high') =
      (compare high high').then (compare low low') := by
  rcases Nat.lt_trichotomy high high' with h | rfl | h
  · have hle : base * (high + 1) ≤ base * high' := Nat.mul_le_mul_left base h
    have hlt : low + base * high < low' + base * high' := by
      rw [Nat.mul_succ] at hle
      omega
    rw [Nat.compare_eq_lt.mpr h, Nat.compare_eq_lt.mpr hlt]
    rfl
  · simp [Nat.compare_eq_ite_lt]
  · have hle : base * (high' + 1) ≤ base * high := Nat.mul_le_mul_left base h
    have hgt : low' + base * high' < low + base * high := by
      rw [Nat.mul_succ] at hle
      omega
    rw [Nat.compare_eq_gt.mpr h, Nat.compare_eq_gt.mpr hgt]
    rfl

/-- Values compare as their numbers: limb by limb, highest first. -/
theorem compare_eq_compare_toNat (a b : UInt256) : compare a b = compare a.toNat b.toNat := by
  have h : compare a b = (compare a.limb3 b.limb3).then ((compare a.limb2 b.limb2).then
      ((compare a.limb1 b.limb1).then (compare a.limb0 b.limb0))) := rfl
  rw [h, toNat, toNat, compare_add_mul a.limb0.toNat_lt_size b.limb0.toNat_lt_size,
    compare_add_mul a.limb1.toNat_lt_size b.limb1.toNat_lt_size,
    compare_add_mul a.limb2.toNat_lt_size b.limb2.toNat_lt_size]
  simp only [UInt64.compare_eq_toNat_compare_toNat, Ordering.then_assoc]

theorem lt_iff_toNat_lt {a b : UInt256} : a < b ↔ a.toNat < b.toNat := by
  show compare a b = .lt ↔ _
  rw [compare_eq_compare_toNat, Nat.compare_eq_lt]

theorem le_iff_toNat_le {a b : UInt256} : a ≤ b ↔ a.toNat ≤ b.toNat := by
  show compare a b ≠ .gt ↔ _
  rw [compare_eq_compare_toNat, Nat.compare_ne_gt]

/-! ## Sums -/

/-- A carry as a number. -/
private def ofCarry (carry : Bool) : Nat := if carry then 1 else 0

/-- One limb of a sum, with what it carries on. -/
private theorem addLimb_value (a b : UInt64) (carry : Bool) :
    (addLimb a b carry).1.toNat + UInt64.size * ofCarry (addLimb a b carry).2 =
      a.toNat + b.toNat + ofCarry carry := by
  have ha := a.toNat_lt
  have hb := b.toNat_lt
  cases carry <;>
    simp only [addLimb, ofCarry, UInt64.lt_iff_toNat_lt, UInt64.toNat_add, UInt64.size,
      Bool.or_eq_true, decide_eq_true_eq, Bool.false_eq_true, if_false, if_true,
      UInt64.toNat_zero, UInt64.toNat_one] <;>
    split <;> omega

/-- The checked sum is the exact sum: it is there if and only if it fits. -/
theorem checkedAdd_eq_some_iff {a b c : UInt256} :
    a.checkedAdd b = some c ↔ a.toNat + b.toNat = c.toNat := by
  -- The carry of each limb goes into the next one.
  have h0 := addLimb_value a.limb0 b.limb0 false
  have hc := c.toNat_lt_size
  simp only [checkedAdd]
  generalize addLimb a.limb0 b.limb0 false = r0 at *
  have h1 := addLimb_value a.limb1 b.limb1 r0.2
  generalize addLimb a.limb1 b.limb1 r0.2 = r1 at *
  have h2 := addLimb_value a.limb2 b.limb2 r1.2
  generalize addLimb a.limb2 b.limb2 r1.2 = r2 at *
  have h3 := addLimb_value a.limb3 b.limb3 r2.2
  generalize addLimb a.limb3 b.limb3 r2.2 = r3 at *
  have hsum : (⟨r0.1, r1.1, r2.1, r3.1⟩ : UInt256).toNat + size * ofCarry r3.2 =
      a.toNat + b.toNat := by
    simp only [toNat, size_eq, ofCarry, UInt64.size, Bool.false_eq_true, if_false] at *
    omega
  -- There is a sum exactly if nothing is carried out at the top.
  cases hcarry : r3.2 <;> simp only [hcarry, ofCarry, if_true, Bool.false_eq_true, if_false] at *
  · rw [Option.some.injEq, ← toNat_inj]
    omega
  · simp only [reduceCtorEq, false_iff]
    omega

theorem checkedAdd_eq_none_iff {a b : UInt256} :
    a.checkedAdd b = none ↔ size ≤ a.toNat + b.toNat :=
  eq_none_iff_of_exact fun _ => checkedAdd_eq_some_iff

/-! ## Differences -/

/-- One limb of a difference, with what it borrows. -/
private theorem subLimb_value (a b : UInt64) (borrow : Bool) :
    (subLimb a b borrow).1.toNat + b.toNat + ofCarry borrow =
      a.toNat + UInt64.size * ofCarry (subLimb a b borrow).2 := by
  have ha := a.toNat_lt
  have hb := b.toNat_lt
  cases borrow <;>
    simp only [subLimb, ofCarry, UInt64.lt_iff_toNat_lt, UInt64.toNat_sub, UInt64.size,
      Bool.or_eq_true, decide_eq_true_eq, Bool.false_eq_true, if_false, if_true,
      UInt64.toNat_zero, UInt64.toNat_one] <;>
    split <;> omega

/-- All limbs of a difference; a borrow left over at the top is worth the size. -/
private theorem borrowingSub_value (a b : UInt256) :
    (borrowingSub a b).1.toNat + b.toNat = a.toNat + size * ofCarry (borrowingSub a b).2 := by
  -- The borrow of each limb goes into the next one.
  have h0 := subLimb_value a.limb0 b.limb0 false
  simp only [borrowingSub]
  generalize subLimb a.limb0 b.limb0 false = r0 at *
  have h1 := subLimb_value a.limb1 b.limb1 r0.2
  generalize subLimb a.limb1 b.limb1 r0.2 = r1 at *
  have h2 := subLimb_value a.limb2 b.limb2 r1.2
  generalize subLimb a.limb2 b.limb2 r1.2 = r2 at *
  have h3 := subLimb_value a.limb3 b.limb3 r2.2
  generalize subLimb a.limb3 b.limb3 r2.2 = r3 at *
  simp only [toNat, size_eq, ofCarry, UInt64.size, Bool.false_eq_true, if_false] at *
  omega

/-- A borrow is left over at the top exactly if the second number is greater. -/
theorem borrowingSub_borrow (a b : UInt256) :
    (borrowingSub a b).2 = decide (a.toNat < b.toNat) := by
  have hsub := borrowingSub_value a b
  have hlt := (borrowingSub a b).1.toNat_lt_size
  have hb := b.toNat_lt_size
  cases hborrow : (borrowingSub a b).2 <;>
    simp only [hborrow, ofCarry, if_true, Bool.false_eq_true, if_false] at hsub
  · rw [decide_eq_false (by omega)]
  · rw [decide_eq_true (by omega)]

/-- The checked difference is the exact difference: it is there if and only if it is not
negative. -/
theorem checkedSub_eq_some_iff {a b c : UInt256} :
    a.checkedSub b = some c ↔ c.toNat + b.toNat = a.toNat := by
  have hsub := borrowingSub_value a b
  have hlt := (borrowingSub a b).1.toNat_lt_size
  have hb := b.toNat_lt_size
  simp only [checkedSub, lt_iff_toNat_lt]
  split
  · simp only [reduceCtorEq, false_iff]
    omega
  · rw [Option.some.injEq, ← toNat_inj]
    cases hborrow : (borrowingSub a b).2 <;>
      simp only [hborrow, ofCarry, if_true, Bool.false_eq_true, if_false] at hsub <;> omega

theorem checkedSub_eq_none_iff {a b : UInt256} : a.checkedSub b = none ↔ a.toNat < b.toNat := by
  simp only [checkedSub, lt_iff_toNat_lt]
  split <;> simp_all

end UInt256

end BridgeMint
