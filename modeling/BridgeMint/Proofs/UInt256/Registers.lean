import BridgeMint.Proofs.UInt256.Saturating

/-!
# The product in registers of 128 bits

The schoolbook multiplication is stated with exact carries.  A machine that computes it holds three
numbers at each place of a row, the product with the incoming carry, the sum with the limb found so
far and the outgoing carry, in registers of 128 bits, and it passes over limbs that are zero.  What
is passed on always fits in a limb, so no register overflows, and the machine finds what the exact
multiplication finds.
-/

namespace BridgeMint

namespace UInt256

/-! ## Registers -/

/-- The number that a register of 128 bits holds after a step; `none` if the register overflows. -/
def register? (n : Nat) : Option Nat :=
  if n < 2 ^ 128 then some n else none

/-- One row of the multiplication with every number on the way in a register.  The outer `none` is an
overflow of a register, the inner one a row that does not fit. -/
def mulRowInRegisters? (a : UInt64) :
    (bs acc : List UInt64) → (carry : Nat) → Option (Option (List UInt64))
  | [], acc, carry => some (if carry = 0 then some acc else none)
  | b :: bs, [], carry => do
    let product ← register? (rowProduct a b carry)
    if product = 0 then mulRowInRegisters? a bs [] 0 else some none
  | b :: bs, r :: acc, carry => do
    let product ← register? (rowProduct a b carry)
    let sum ← register? (rowSum r product)
    let passedOn ← register? (rowCarry product sum)
    let row ← mulRowInRegisters? a bs acc passedOn
    some (row.map (UInt64.ofNat sum :: ·))

/-- The row of one limb in registers; a limb that is zero is passed over. -/
def limbRowInRegisters? (a : UInt64) (bs acc : List UInt64) : Option (Option (List UInt64)) :=
  if a = 0 then some (some acc) else mulRowInRegisters? a bs acc 0

/-- All rows in registers. -/
def mulRowsInRegisters? (bs : List UInt64) :
    (as acc : List UInt64) → Option (Option (List UInt64))
  | [], acc => some (some acc)
  | a :: as, acc => do
    match ← limbRowInRegisters? a bs acc with
    | none => some none
    | some [] => mulRowsInRegisters? bs as []
    | some (r :: rest) =>
      let rows ← mulRowsInRegisters? bs as rest
      some (rows.map (r :: ·))

/-- The checked product as a machine with registers of 128 bits computes it; `none` if one of them
overflows. -/
def mulInRegisters? (a b : UInt256) : Option (Option UInt256) :=
  (mulRowsInRegisters? b.limbs a.limbs [0, 0, 0, 0]).map (·.map ofLimbs)

theorem register?_of_lt {n : Nat} (h : n < 2 ^ 128) : register? n = some n :=
  if_pos h

/-! ## One place

The bounds: a carry below `2 ^ 64` is added to the product of two limbs, and there is still room for
one more limb. -/

variable {carry : Nat}

/-- A product of two limbs with a carry leaves room for one more limb. -/
theorem rowProduct_add_size_le (a b : UInt64) (h : carry < UInt64.size) :
    rowProduct a b carry + UInt64.size ≤ 2 ^ 128 := by
  have ha := a.toNat_lt
  have hb := b.toNat_lt
  have hproduct : a.toNat * b.toNat ≤ (2 ^ 64 - 1) * (2 ^ 64 - 1) :=
    Nat.mul_le_mul (by omega) (by omega)
  simp only [rowProduct, UInt64.size] at *
  omega

/-- The sum takes only the lowest limb of the product, so it is far below the bound. -/
theorem rowSum_lt (r : UInt64) (product : Nat) : rowSum r product < 2 ^ 128 := by
  have hr := r.toNat_lt
  simp only [rowSum, UInt64.size]
  omega

/-- What a place passes on fits in a limb again. -/
theorem rowCarry_lt {product : Nat} (r : UInt64) (h : product + UInt64.size ≤ 2 ^ 128) :
    rowCarry product (rowSum r product) < UInt64.size := by
  have hr := r.toNat_lt
  simp only [rowCarry, rowSum, UInt64.size] at *
  omega

/-! ## Rows -/

/-- No register overflows in a row, whether it fits or not. -/
theorem mulRowInRegisters?_eq {a : UInt64} {bs acc : List UInt64} (h : carry < UInt64.size) :
    mulRowInRegisters? a bs acc carry = some (mulRow a bs acc carry) := by
  induction bs generalizing acc carry with
  | nil => rfl
  | cons b bs ih =>
    -- The carry fits in a limb here, and what is passed on fits in one again.
    have hbound := rowProduct_add_size_le a b h
    have hproduct : register? (rowProduct a b carry) = some (rowProduct a b carry) :=
      register?_of_lt (by simp only [UInt64.size] at hbound; omega)
    cases acc with
    | nil =>
      simp only [mulRowInRegisters?, mulRow, hproduct, Option.bind_eq_bind, Option.bind_some]
      split
      · exact ih (by decide)
      · rfl
    | cons r acc =>
      have hpassedOn := rowCarry_lt r hbound
      have hsum := register?_of_lt (rowSum_lt r (rowProduct a b carry))
      have hcarry := register?_of_lt (Nat.lt_trans hpassedOn (by decide))
      simp only [mulRowInRegisters?, mulRow, hproduct, hsum, hcarry, ih hpassedOn,
        Option.bind_eq_bind, Option.bind_some]

/-- The row of a limb that is zero changes nothing, so the limb can be passed over. -/
theorem mulRow_zero (bs acc : List UInt64) : mulRow 0 bs acc 0 = some acc := by
  induction bs generalizing acc with
  | nil => simp [mulRow]
  | cons b bs ih =>
    cases acc with
    | nil => simp [mulRow, rowProduct, ih]
    | cons r acc =>
      have hcarry : r.toNat / UInt64.size = 0 := Nat.div_eq_of_lt r.toNat_lt
      simp [mulRow, rowProduct, rowSum, rowCarry, hcarry, ih]

theorem limbRowInRegisters?_eq (a : UInt64) (bs acc : List UInt64) :
    limbRowInRegisters? a bs acc = some (mulRow a bs acc 0) := by
  rw [limbRowInRegisters?]
  split
  case isTrue hzero => rw [hzero, mulRow_zero]
  case isFalse => exact mulRowInRegisters?_eq (by decide)

/-- All rows are found without overflow. -/
theorem mulRowsInRegisters?_eq (bs as acc : List UInt64) :
    mulRowsInRegisters? bs as acc = some (mulRows bs as acc) := by
  induction as generalizing acc with
  | nil => rfl
  | cons a as ih =>
    rw [mulRowsInRegisters?, mulRows, limbRowInRegisters?_eq, Option.bind_eq_bind,
      Option.bind_some]
    -- What has become of the limbs decides on both sides how the rows go on.
    cases mulRow a bs acc 0 with
    | none => rfl
    | some row =>
      cases row with
      | nil => exact ih []
      | cons r rest => simp [ih rest]

/-- The multiplication of two numbers never overflows a register. -/
theorem mulInRegisters?_eq (a b : UInt256) : mulInRegisters? a b = some (a.checkedMul b) := by
  rw [mulInRegisters?, mulRowsInRegisters?_eq, Option.map_some, checkedMul]

/-- Multiplication is exact: the checked product is the product of the numbers if that is below
`2 ^ 256` and nothing otherwise, no register of 128 bits overflows on the way to it, the order of the
factors does not matter, and the operator cuts the product off at the greatest value. -/
theorem checkedMul_exact (a b : UInt256) :
    ((a.checkedMul b).map toNat =
      if a.toNat * b.toNat < 2 ^ 256 then some (a.toNat * b.toNat) else none) ∧
    mulInRegisters? a b = some (a.checkedMul b) ∧
    a.checkedMul b = b.checkedMul a ∧
    (a * b).toNat = min (a.toNat * b.toNat) (2 ^ 256 - 1) := by
  refine ⟨?exact, ?registers, ?commutes, ?saturates⟩
  case exact => exact map_toNat_checkedMul a b
  case registers => exact mulInRegisters?_eq a b
  case commutes => exact checkedMul_comm a b
  case saturates => exact toNat_saturatingMul a b

end UInt256

end BridgeMint
