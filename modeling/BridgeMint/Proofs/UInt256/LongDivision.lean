import BridgeMint.Proofs.UInt256.Division
import BridgeMint.Proofs.UInt256.Registers

/-!
# Division in registers of 128 bits

Long division is stated with exact remainders.  A machine that computes it moves the remainder up by
one limb in a register of 128 bits, puts the next limb below it, divides, and narrows the partial
quotient to 64 bits.  As the remainder stays below the divisor, moving it up loses no bit and
narrowing the quotient loses none either, so the machine finds what the exact division finds.
-/

namespace BridgeMint

namespace UInt256

/-! ## Registers -/

/-- The limb that a number is narrowed to; `none` if bits of the number are lost. -/
def narrow? (n : Nat) : Option UInt64 :=
  if n < UInt64.size then some (.ofNat n) else none

/-- The remainder moved up by one limb, with the next limb in the place below it; `none` if bits of
the remainder are lost. -/
def moveUp? (remainder : Nat) (limb : UInt64) : Option Nat :=
  (register? (remainder <<< 64)).map (· ||| limb.toNat)

/-- Long division of limbs, highest first, with every number on the way in a register; `none` if bits
are lost. -/
def divLimbsInRegisters? (divisor : UInt64) :
    (limbs : List UInt64) → (remainder : Nat) → Option (List UInt64 × Nat)
  | [], remainder => some ([], remainder)
  | limb :: rest, remainder => do
    let current ← moveUp? remainder limb
    let digit ← narrow? (current / divisor.toNat)
    let (quotient, last) ← divLimbsInRegisters? divisor rest (current % divisor.toNat)
    some (digit :: quotient, last)

/-- Quotient and remainder as a machine with registers of 128 bits computes them.  The outer `none`
tells that bits were lost, the inner one that the divisor is zero. -/
def divRemInRegisters? (a : UInt256) (divisor : UInt64) : Option (Option (UInt256 × UInt64)) :=
  if divisor = 0 then some none
  else do
    let (quotient, last) ← divLimbsInRegisters? divisor a.limbs.reverse 0
    let remainder ← narrow? last
    some (some (ofLimbs quotient.reverse, remainder))

/-! ## One limb -/

variable {divisor : UInt64} {remainder : Nat}

theorem narrow?_of_lt {n : Nat} (h : n < UInt64.size) : narrow? n = some (.ofNat n) :=
  if_pos h

/-- A remainder below a divisor of 64 bits can be moved up, and the limb goes into the free place. -/
theorem moveUp?_eq (h : remainder < divisor.toNat) (limb : UInt64) :
    moveUp? remainder limb = some (UInt64.size * remainder + limb.toNat) := by
  have hdivisor := divisor.toNat_lt
  have hmoved : remainder <<< 64 = UInt64.size * remainder := by
    rw [Nat.shiftLeft_eq, Nat.mul_comm]
  -- The sixty-four places that became free take the limb, so putting it there is adding it.
  have hplace : remainder <<< 64 ||| limb.toNat = UInt64.size * remainder + limb.toNat := by
    rw [← Nat.shiftLeft_add_eq_or_of_lt limb.toNat_lt, hmoved]
  -- A remainder below the divisor has at most 64 bits, and moved up at most 128.
  have hfits : remainder <<< 64 < 2 ^ 128 := by
    rw [hmoved]
    simp only [UInt64.size]
    omega
  rw [moveUp?, register?_of_lt hfits, Option.map_some, hplace]

/-! ## All limbs -/

/-- From a remainder below the divisor, the machine divides all limbs without losing a bit. -/
theorem divLimbsInRegisters?_eq (h : remainder < divisor.toNat) (limbs : List UInt64) :
    divLimbsInRegisters? divisor limbs remainder = some (divLimbs divisor limbs remainder) := by
  induction limbs generalizing remainder with
  | nil => rfl
  | cons limb rest ih =>
    -- What is passed on is below the divisor again, so the next limb finds the same situation.
    have hpassedOn : (UInt64.size * remainder + limb.toNat) % divisor.toNat < divisor.toNat :=
      Nat.mod_lt _ (by omega)
    simp only [divLimbsInRegisters?, moveUp?_eq h limb, narrow?_of_lt (partialQuotient_lt h limb),
      ih hpassedOn, Option.bind_eq_bind, Option.bind_some, divLimbs]

/-- The division of a number by a small one never loses a bit. -/
theorem divRemInRegisters?_eq (a : UInt256) (divisor : UInt64) :
    divRemInRegisters? a divisor = some (a.divRem? divisor) := by
  unfold divRemInRegisters? divRem?
  split
  case isTrue => rfl
  case isFalse hdivisor =>
    have hpositive := toNat_pos_of_ne_zero hdivisor
    have hlast := divLimbs_remainder_lt hpositive a.limbs.reverse
    have hfits := narrow?_of_lt (Nat.lt_trans hlast divisor.toNat_lt)
    simp only [divLimbsInRegisters?_eq hpositive, hfits, Option.bind_eq_bind, Option.bind_some]

/-! ## Quotient and remainder -/

/-- A quotient is smaller than what was divided, unless that is zero or the divisor is one. -/
theorem quotient_lt {a quotient : UInt256} (h : quotient.toNat = a.toNat / divisor.toNat)
    (hpositive : 0 < a) (hdivisor : 1 < divisor) : quotient < a := by
  rw [lt_iff_toNat_lt, toNat_zero] at hpositive
  rw [lt_iff_toNat_lt, h]
  exact Nat.div_lt_self hpositive (UInt64.lt_iff_toNat_lt.mp hdivisor)

/-- Division by a small number is exact: there is no quotient by zero; by any other number, quotient
and remainder make up what was divided, the remainder is below the divisor, and the quotient is
smaller than what was divided if that is positive and the divisor above one; and on the way no bit is
lost, neither of a remainder moved up in 128 bits nor of a partial quotient narrowed to 64. -/
theorem divRem?_of_integers (a : UInt256) (divisor : UInt64) :
    a.divRem? 0 = none ∧
    (divisor ≠ 0 → ∃ quotient remainder, a.divRem? divisor = some (quotient, remainder) ∧
      a.toNat = quotient.toNat * divisor.toNat + remainder.toNat ∧ remainder < divisor ∧
      (0 < a → 1 < divisor → quotient < a)) ∧
    divRemInRegisters? a divisor = some (a.divRem? divisor) := by
  refine ⟨divRem?_eq_none_iff.mpr rfl, fun hdivisor => ?_, divRemInRegisters?_eq a divisor⟩
  cases hdivided : a.divRem? divisor with
  | none => exact absurd (divRem?_eq_none_iff.mp hdivided) hdivisor
  | some answer =>
    obtain ⟨quotient, remainder⟩ := answer
    -- Quotient and remainder are those of the natural numbers, which have these properties.
    obtain ⟨hquotient, hremainder⟩ := divRem?_exact hdivided
    have hpositive := toNat_pos_of_ne_zero hdivisor
    refine ⟨quotient, remainder, rfl, ?_, ?_, quotient_lt hquotient⟩
    · rw [hquotient, hremainder]
      exact (Nat.div_add_mod' a.toNat divisor.toNat).symm
    · rw [UInt64.lt_iff_toNat_lt, hremainder]
      exact Nat.mod_lt _ hpositive

/-- The greatest number divided by the greatest divisor, where partial dividends need the most
bits. -/
theorem divRem?_of_integers_greatest :
    ∃ quotient remainder, UInt256.max.divRem? 0xffffffffffffffff = some (quotient, remainder) ∧
      UInt256.max.toNat = quotient.toNat * (2 ^ 64 - 1) + remainder.toNat ∧
      remainder < 0xffffffffffffffff ∧ quotient < UInt256.max := by
  obtain ⟨-, hdivides, -⟩ := divRem?_of_integers UInt256.max 0xffffffffffffffff
  obtain ⟨quotient, remainder, hdivided, hvalue, hremainder, hsmaller⟩ := hdivides (by decide)
  exact ⟨quotient, remainder, hdivided, hvalue, hremainder, hsmaller (by decide) (by decide)⟩

end UInt256

end BridgeMint
