import BridgeMint.Gas
import Mathlib.Algebra.Ring.Nat

/-!
# What meters keep

A meter never counts more than its limit, so what is left and what is used add up to the limit.  It only
counts on: nothing that happens to a meter takes back what it has counted.
-/

namespace BridgeMint

/-- A sum that fits is exact. -/
theorem UInt64.toNat_add_of_lt {a b : UInt64} (h : a.toNat + b.toNat < UInt64.size) :
    (a + b).toNat = a.toNat + b.toNat := by
  rw [UInt64.toNat_add]
  exact Nat.mod_eq_of_lt h

/-- Every number but the last has a successor. -/
theorem UInt64.toNat_add_one_of_lt {n : UInt64} (h : n.toNat + 1 < UInt64.size) :
    (n + 1).toNat = n.toNat + 1 :=
  UInt64.toNat_add_of_lt h

/-! ## Operations that stop at the greatest number -/

/-- The sum, or the greatest number if the sum does not fit. -/
theorem UInt64.toNat_saturatingAdd (a b : UInt64) :
    (UInt64.saturatingAdd a b).toNat = min (2 ^ 64 - 1) (a.toNat + b.toNat) := by
  unfold UInt64.saturatingAdd
  split
  case isTrue hfits =>
    rw [UInt64.toNat_add_of_lt hfits]
    simp only [UInt64.size] at hfits
    omega
  case isFalse hover =>
    simp only [UInt64.size] at hover
    simp only [UInt64.reduceToNat]
    omega

/-- The product, or the greatest number if the product does not fit. -/
theorem UInt64.toNat_saturatingMul (a b : UInt64) :
    (UInt64.saturatingMul a b).toNat = min (2 ^ 64 - 1) (a.toNat * b.toNat) := by
  unfold UInt64.saturatingMul
  split
  case isTrue hfits =>
    have hexact : (a * b).toNat = a.toNat * b.toNat := by
      rw [UInt64.toNat_mul]
      exact Nat.mod_eq_of_lt hfits
    rw [hexact]
    simp only [UInt64.size] at hfits
    omega
  case isFalse hover =>
    simp only [UInt64.size] at hover
    simp only [UInt64.reduceToNat]
    omega

/-! ## Meters -/

namespace GasMeter

/-- The meter counts up to a limit and has not passed it. -/
def Within (limit : UInt64) (meter : GasMeter) : Prop :=
  meter.limit = limit ∧ meter.used ≤ limit

theorem within_start (limit : UInt64) : (start limit).Within limit :=
  ⟨rfl, UInt64.le_iff_toNat_le.mpr (Nat.zero_le _)⟩

/-- A charge that does not pass the limit is counted: its sum with what has been used fits, since the limit
does. -/
theorem charge_of_le {meter : GasMeter} {amount : UInt64}
    (h : meter.used.toNat + amount.toNat ≤ meter.limit.toNat) :
    meter.charge amount = .ok { meter with used := meter.used + amount } := by
  have hfits : meter.used.toNat + amount.toNat < UInt64.size :=
    Nat.lt_of_le_of_lt h (UInt64.toNat_lt_size meter.limit)
  have hunder : ¬ meter.limit < meter.used + amount := by
    rw [UInt64.lt_iff_toNat_lt, UInt64.toNat_add_of_lt hfits]
    exact Nat.not_lt.mpr h
  rw [charge, if_pos hfits, if_neg hunder]

/-- A charge that would pass the limit is refused.  The refusal tells how much would have been used, as far
as that number fits. -/
theorem charge_of_lt {meter : GasMeter} {amount : UInt64}
    (h : meter.limit.toNat < meter.used.toNat + amount.toNat) :
    meter.charge amount =
      .error (.outOfGas (UInt64.saturatingAdd meter.used amount) meter.limit) := by
  -- Whether the sum wraps is the same question for the charge and for the number that is told.
  rw [charge, UInt64.saturatingAdd]
  split
  case isTrue hfits =>
    rw [← UInt64.toNat_add_of_lt hfits, ← UInt64.lt_iff_toNat_lt] at h
    rw [if_pos h]
  case isFalse => rfl

/-- Charging succeeds exactly if the meter does not pass its limit. -/
theorem charge_eq_ok {meter charged : GasMeter} {amount : UInt64} :
    meter.charge amount = .ok charged ↔
      meter.used.toNat + amount.toNat ≤ meter.limit.toNat ∧
        charged = { meter with used := meter.used + amount } := by
  rcases Nat.lt_or_ge meter.limit.toNat (meter.used.toNat + amount.toNat) with hover | hfits
  · rw [charge_of_lt hover]
    simp [Nat.not_le.mpr hover]
  · rw [charge_of_le hfits]
    simp [hfits, eq_comm]

/-- A meter refuses what would pass its limit, for no other reason. -/
theorem exists_of_charge_error {meter : GasMeter} {amount : UInt64} {cause : CallError}
    (h : meter.charge amount = .error cause) : ∃ used, cause = .outOfGas used meter.limit := by
  rcases Nat.lt_or_ge meter.limit.toNat (meter.used.toNat + amount.toNat) with hover | hfits
  · rw [charge_of_lt hover] at h
    cases h
    exact ⟨_, rfl⟩
  · rw [charge_of_le hfits] at h
    cases h

/-- What was charged is counted exactly. -/
theorem toNat_used_of_charge {meter charged : GasMeter} {amount : UInt64}
    (h : meter.charge amount = .ok charged) :
    charged.used.toNat = meter.used.toNat + amount.toNat := by
  obtain ⟨hle, rfl⟩ := charge_eq_ok.mp h
  exact UInt64.toNat_add_of_lt (Nat.lt_of_le_of_lt hle (UInt64.toNat_lt_size meter.limit))

/-- A first charge is all that a new meter has counted. -/
theorem eq_of_charge_start {meter : GasMeter} {limit amount : UInt64}
    (h : (start limit).charge amount = .ok meter) : meter = ⟨limit, amount⟩ := by
  obtain ⟨-, rfl⟩ := charge_eq_ok.mp h
  rw [start, UInt64.zero_add]

/-- A charge that is accepted does not pass the limit. -/
theorem Within.charge {limit amount : UInt64} {meter charged : GasMeter} (h : meter.Within limit)
    (hcharge : meter.charge amount = .ok charged) : charged.Within limit := by
  have hused := toNat_used_of_charge hcharge
  obtain ⟨rfl, -⟩ := h
  obtain ⟨hle, rfl⟩ := charge_eq_ok.mp hcharge
  refine ⟨rfl, ?_⟩
  rw [UInt64.le_iff_toNat_le, hused]
  exact hle

/-- An exhausted meter has reached its limit and not passed it. -/
theorem Within.exhaust {limit : UInt64} {meter : GasMeter} (h : meter.Within limit) :
    meter.exhaust.Within limit := by
  obtain ⟨rfl, -⟩ := h
  exact ⟨rfl, UInt64.le_iff_toNat_le.mpr (Nat.le_refl _)⟩

/-- What is left and what is used make up the limit. -/
theorem Within.remaining_add_used {limit : UInt64} {meter : GasMeter} (h : meter.Within limit) :
    meter.remaining.toNat + meter.used.toNat = limit.toNat := by
  obtain ⟨rfl, hused⟩ := h
  rw [remaining, UInt64.toNat_sub_of_le _ _ hused]
  have := UInt64.le_iff_toNat_le.mp hused
  omega

/-- What is left less is what has been counted more. -/
theorem Within.remaining_sub {limit : UInt64} {meter later : GasMeter} (h : meter.Within limit)
    (h' : later.Within limit) : meter.remaining - later.remaining = later.used - meter.used := by
  obtain ⟨hlimit, -⟩ := h
  obtain ⟨hlimit', -⟩ := h'
  -- Both are differences to the same limit.
  rw [remaining, remaining, hlimit, hlimit']
  grind

/-- What is left can always be charged. -/
theorem Within.charge_remaining {limit amount : UInt64} {meter : GasMeter} (h : meter.Within limit)
    (hle : amount ≤ meter.remaining) :
    meter.charge amount = .ok { meter with used := meter.used + amount } := by
  have hsum := h.remaining_add_used
  have hamount := UInt64.le_iff_toNat_le.mp hle
  obtain ⟨hlimit, -⟩ := h
  apply charge_of_le
  rw [hlimit]
  omega

/-! ## Meters that go on -/

/-- What may become of a meter: it keeps its limit, does not pass it, and does not count back. -/
def CountsOn (meter later : GasMeter) : Prop :=
  ∀ limit, meter.Within limit → later.Within limit ∧ meter.used ≤ later.used

theorem CountsOn.refl (meter : GasMeter) : meter.CountsOn meter :=
  fun _ hmeter => ⟨hmeter, UInt64.le_refl _⟩

/-- A meter that goes on, and then goes on from there, has gone on. -/
theorem CountsOn.trans {meter later last : GasMeter} (h : meter.CountsOn later)
    (h' : later.CountsOn last) : meter.CountsOn last := by
  intro limit hmeter
  obtain ⟨hlater, hle⟩ := h limit hmeter
  obtain ⟨hlast, hle'⟩ := h' limit hlater
  exact ⟨hlast, UInt64.le_trans hle hle'⟩

/-- A charge only counts on. -/
theorem CountsOn.charge {meter charged : GasMeter} {amount : UInt64}
    (h : meter.charge amount = .ok charged) : meter.CountsOn charged := by
  intro limit hmeter
  refine ⟨hmeter.charge h, ?_⟩
  rw [UInt64.le_iff_toNat_le, toNat_used_of_charge h]
  exact Nat.le_add_right _ _

/-- So does exhausting the meter. -/
theorem CountsOn.exhaust (meter : GasMeter) : meter.CountsOn meter.exhaust := by
  intro limit hmeter
  refine ⟨hmeter.exhaust, ?_⟩
  obtain ⟨rfl, hused⟩ := hmeter
  exact hused

end GasMeter

end BridgeMint
