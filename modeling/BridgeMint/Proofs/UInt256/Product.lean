import BridgeMint.Proofs.UInt256.Value
import Mathlib.Tactic.Linarith
import Mathlib.Tactic.LinearCombination

/-!
# The checked product is exact

Each row of the schoolbook multiplication adds a multiple of one number to the limbs found so far.
A row succeeds exactly when the new value fits in the places there are, and so does the whole
product.
-/

namespace BridgeMint

namespace UInt256

/-! ## Values of limb lists -/

/-- The number that a list of limbs stands for, lowest first. -/
def limbsValue : List UInt64 → Nat
  | [] => 0
  | limb :: rest => limb.toNat + UInt64.size * limbsValue rest

theorem limbsValue_limbs (a : UInt256) : limbsValue a.limbs = a.toNat := by
  simp [limbs, limbsValue, toNat]

theorem toNat_ofLimbs {l : List UInt64} (h : l.length = 4) : (ofLimbs l).toNat = limbsValue l := by
  obtain ⟨a, b, c, d, rfl⟩ : ∃ a b c d, l = [a, b, c, d] := by
    match l, h with
    | [a, b, c, d], _ => exact ⟨a, b, c, d, rfl⟩
  simp [ofLimbs, toNat, limbsValue]

/-! ## One row -/

/-- What one place contributes: its limb, and what it passes on, are the old limb and the product. -/
private theorem rowSum_value (r a b : UInt64) (carry : Nat) :
    (UInt64.ofNat (rowSum r (rowProduct a b carry))).toNat +
        UInt64.size * rowCarry (rowProduct a b carry) (rowSum r (rowProduct a b carry)) =
      r.toNat + a.toNat * b.toNat + carry := by
  simp only [rowSum, rowCarry, rowProduct, UInt64.toNat_ofNat', UInt64.size]
  omega

/-- A row answers the exact value. -/
theorem mulRow_value {a : UInt64} {bs acc result : List UInt64} {carry : Nat}
    (hlen : acc.length ≤ bs.length) (h : mulRow a bs acc carry = some result) :
    result.length = acc.length ∧
      limbsValue result = limbsValue acc + a.toNat * limbsValue bs + carry := by
  induction bs generalizing acc carry result with
  | nil =>
    -- There are no places and no limbs left, and the row succeeds only without a carry.
    obtain rfl : acc = [] := List.eq_nil_of_length_eq_zero (by simpa using hlen)
    simp only [mulRow, Option.ite_none_right_eq_some, Option.some.injEq] at h
    obtain ⟨hcarry, rfl⟩ := h
    simp [limbsValue, hcarry]
  | cons b bs ih =>
    cases acc with
    | nil =>
      -- There is no place left, so everything that is still to be added is zero.
      simp only [mulRow, Option.ite_none_right_eq_some] at h
      obtain ⟨hproduct, h⟩ := h
      obtain ⟨hresult, hvalue⟩ := ih (by simp) h
      have hrest : limbsValue result = 0 := by simp_all [List.eq_nil_of_length_eq_zero, limbsValue]
      simp only [limbsValue, rowProduct] at *
      refine ⟨hresult, ?_⟩
      have hzero : a.toNat * limbsValue bs = 0 := by omega
      calc limbsValue result = 0 := hrest
        _ = (a.toNat * b.toNat + carry) + UInt64.size * (a.toNat * limbsValue bs) := by
          rw [hproduct, hzero, Nat.mul_zero]
        _ = 0 + a.toNat * (b.toNat + UInt64.size * limbsValue bs) + carry := by ring
    | cons r acc =>
      simp only [mulRow, Option.map_eq_some_iff] at h
      -- One place is filled, and the row goes on with what is passed on.
      obtain ⟨rest, h, rfl⟩ := h
      obtain ⟨hrest, hvalue⟩ := ih (by simpa using hlen) h
      have hplace := rowSum_value r a b carry
      refine ⟨by simp [hrest], ?_⟩
      simp only [limbsValue, hvalue]
      linear_combination hplace

/-- A row succeeds whenever its value fits. -/
theorem mulRow_isSome {a : UInt64} {bs acc : List UInt64} {carry : Nat}
    (hlen : acc.length ≤ bs.length)
    (hfits : limbsValue acc + a.toNat * limbsValue bs + carry < UInt64.size ^ acc.length) :
    (mulRow a bs acc carry).isSome := by
  induction bs generalizing acc carry with
  | nil =>
    obtain rfl : acc = [] := List.eq_nil_of_length_eq_zero (by simpa using hlen)
    have hcarry : carry = 0 := by simpa [limbsValue] using hfits
    simp [mulRow, hcarry]
  | cons b bs ih =>
    cases acc with
    | nil =>
      have hzero : a.toNat * (b.toNat + UInt64.size * limbsValue bs) + carry = 0 := by
        simpa [limbsValue] using hfits
      -- Without places the value is below one, so each part of it is zero.
      have hproduct : a.toNat * b.toNat + carry = 0 := by nlinarith
      have hrest : a.toNat * limbsValue bs = 0 := by
        have : UInt64.size * (a.toNat * limbsValue bs) = 0 := by nlinarith
        simpa [UInt64.size] using this
      rw [mulRow, rowProduct, if_pos hproduct]
      exact ih (by simp) (by simp [limbsValue, hrest])
    | cons r acc =>
      have hplace := rowSum_value r a b carry
      simp only [mulRow, Option.isSome_map]
      refine ih (by simpa using hlen) ?_
      -- What is passed on is the whole value without its lowest limb.
      refine Nat.lt_of_mul_lt_mul_left (a := UInt64.size) ?_
      have hpow : UInt64.size * UInt64.size ^ acc.length = UInt64.size ^ (r :: acc).length := by
        rw [List.length_cons, pow_succ, mul_comm]
      rw [hpow]
      simp only [limbsValue] at hfits
      nlinarith

/-! ## All rows -/

/-- The rows answer the exact value. -/
theorem mulRows_value {bs as acc result : List UInt64} (hlen : acc.length ≤ bs.length)
    (h : mulRows bs as acc = some result) :
    result.length = acc.length ∧
      limbsValue result = limbsValue acc + limbsValue as * limbsValue bs := by
  induction as generalizing acc result with
  | nil =>
    simp only [mulRows, Option.some.injEq] at h
    simp [← h, limbsValue]
  | cons a as ih =>
    simp only [mulRows] at h
    split at h
    · cases h
    · -- Without places the limbs and the products are zero.
      next hrow =>
      obtain ⟨hacc, hvalue⟩ := mulRow_value hlen hrow
      obtain rfl : acc = [] := List.eq_nil_of_length_eq_zero (by simpa using hacc.symm)
      obtain ⟨hresult, hrest⟩ := ih (by simp) h
      refine ⟨hresult, ?_⟩
      obtain rfl : result = [] := List.eq_nil_of_length_eq_zero hresult
      simp only [limbsValue] at *
      have hfirst : a.toNat * limbsValue bs = 0 := by omega
      have hothers : limbsValue as * limbsValue bs = 0 := by omega
      calc (0 : Nat) = a.toNat * limbsValue bs + UInt64.size * (limbsValue as * limbsValue bs) := by
            rw [hfirst, hothers, Nat.mul_zero]
        _ = 0 + (a.toNat + UInt64.size * limbsValue as) * limbsValue bs := by ring
    · -- The lowest place is done, and the other rows go into those above it.
      next r row hrow =>
      obtain ⟨hacc, hvalue⟩ := mulRow_value hlen hrow
      obtain ⟨rest, hrows, rfl⟩ := Option.map_eq_some_iff.mp h
      have hle : row.length ≤ bs.length := by simp only [List.length_cons] at hacc; omega
      obtain ⟨hresult, hrest⟩ := ih hle hrows
      refine ⟨by simpa [hresult] using hacc, ?_⟩
      simp only [limbsValue] at hvalue ⊢
      rw [hrest]
      linear_combination hvalue

/-- The rows succeed whenever their value fits. -/
theorem mulRows_isSome {bs as acc : List UInt64} (hlen : acc.length ≤ bs.length)
    (hfits : limbsValue acc + limbsValue as * limbsValue bs < UInt64.size ^ acc.length) :
    (mulRows bs as acc).isSome := by
  induction as generalizing acc with
  | nil => simp [mulRows]
  | cons a as ih =>
    have hsplit : limbsValue (a :: as) * limbsValue bs =
        a.toNat * limbsValue bs + UInt64.size * (limbsValue as * limbsValue bs) := by
      rw [limbsValue]
      ring
    have hrowFits : limbsValue acc + a.toNat * limbsValue bs + 0 < UInt64.size ^ acc.length := by
      have := Nat.zero_le (UInt64.size * (limbsValue as * limbsValue bs))
      omega
    -- The value of the first row is at most the whole, so the row succeeds.
    obtain ⟨row, hrow⟩ := Option.isSome_iff_exists.mp (mulRow_isSome hlen hrowFits)
    obtain ⟨hacc, hvalue⟩ := mulRow_value hlen hrow
    simp only [mulRows, hrow]
    cases row with
    | nil =>
      obtain rfl : acc = [] := List.eq_nil_of_length_eq_zero (by simpa using hacc.symm)
      refine ih (by simp) ?_
      rw [hsplit, List.length_nil, pow_zero] at hfits
      have : UInt64.size * (limbsValue as * limbsValue bs) = 0 := by omega
      have : limbsValue as * limbsValue bs = 0 := by simpa [UInt64.size] using this
      simp [limbsValue, this]
    | cons r row =>
      simp only [Option.isSome_map]
      have hrow' : acc.length = row.length + 1 := by simpa using hacc.symm
      refine ih (by omega) ?_
      -- The other rows have one place less for a value that is smaller by as much.
      refine Nat.lt_of_mul_lt_mul_left (a := UInt64.size) ?_
      rw [hsplit, hrow', pow_succ] at hfits
      simp only [limbsValue] at hvalue
      nlinarith

/-! ## The product -/

/-- The checked product is the exact product: it is there if and only if it fits. -/
theorem checkedMul_eq_some_iff {a b c : UInt256} :
    a.checkedMul b = some c ↔ a.toNat * b.toNat = c.toNat := by
  have hlen : ([0, 0, 0, 0] : List UInt64).length ≤ b.limbs.length := by simp [limbs]
  have hzero : limbsValue [0, 0, 0, 0] = 0 := by simp [limbsValue]
  have hsound : ∀ d, a.checkedMul b = some d → a.toNat * b.toNat = d.toNat := by
    intro d hd
    obtain ⟨result, hresult, rfl⟩ := Option.map_eq_some_iff.mp hd
    obtain ⟨hlength, hvalue⟩ := mulRows_value hlen hresult
    rw [toNat_ofLimbs hlength, hvalue, hzero, limbsValue_limbs, limbsValue_limbs, Nat.zero_add]
  refine ⟨hsound c, fun h => ?_⟩
  -- Conversely, a product that is a number has room in four limbs.
  have hfits : limbsValue [0, 0, 0, 0] + limbsValue a.limbs * limbsValue b.limbs <
      UInt64.size ^ ([0, 0, 0, 0] : List UInt64).length := by
    have hpow : UInt64.size ^ ([0, 0, 0, 0] : List UInt64).length = size := by
      simp [size, UInt64.size]
    rw [hzero, limbsValue_limbs, limbsValue_limbs, Nat.zero_add, h, hpow]
    exact c.toNat_lt_size
  obtain ⟨result, hresult⟩ := Option.isSome_iff_exists.mp (mulRows_isSome hlen hfits)
  have hd : a.checkedMul b = some (ofLimbs result) := by rw [checkedMul, hresult]; rfl
  rw [hd, Option.some.injEq, ← toNat_inj, ← hsound _ hd, h]

theorem checkedMul_eq_none_iff {a b : UInt256} :
    a.checkedMul b = none ↔ size ≤ a.toNat * b.toNat :=
  eq_none_iff_of_exact fun _ => checkedMul_eq_some_iff

theorem toNat_saturatingMul (a b : UInt256) :
    (a.saturatingMul b).toNat = min (a.toNat * b.toNat) (size - 1) :=
  toNat_getD_max_of_exact fun _ => checkedMul_eq_some_iff

/-- A product that fits is not cut off. -/
theorem toNat_mul_of_lt {a b : UInt256} (h : a.toNat * b.toNat < size) :
    (a * b).toNat = a.toNat * b.toNat := by
  have hcut : (a * b).toNat = min (a.toNat * b.toNat) (size - 1) := toNat_saturatingMul a b
  omega

end UInt256

end BridgeMint
