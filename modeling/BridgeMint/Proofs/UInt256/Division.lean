import BridgeMint.Proofs.UInt256.Product

/-!
# Division by a small number is exact

Long division goes down the limbs, highest first, and passes each remainder on to the next limb.  As
the remainder stays below the divisor, every partial quotient fits in a limb, so quotient and
remainder are those of the numbers.
-/

namespace BridgeMint

namespace UInt256

/-- The value of limbs one after the other: those behind are worth more by the length of those in front. -/
theorem limbsValue_append (front back : List UInt64) :
    limbsValue (front ++ back) = limbsValue front + UInt64.size ^ front.length * limbsValue back := by
  induction front with
  | nil => simp [limbsValue]
  | cons limb rest ih =>
    rw [List.cons_append, limbsValue, ih, limbsValue, List.length_cons, pow_succ]
    ring

/-- The limb in front of a list that is written highest first. -/
theorem limbsValue_reverse_cons (limb : UInt64) (rest : List UInt64) :
    limbsValue (limb :: rest).reverse =
      limbsValue rest.reverse + UInt64.size ^ rest.length * limb.toNat := by
  rw [List.reverse_cons, limbsValue_append, List.length_reverse]
  simp [limbsValue]

/-! ## Long division -/

@[simp] theorem length_divLimbs (divisor : UInt64) (limbs : List UInt64) (remainder : Nat) :
    (divLimbs divisor limbs remainder).1.length = limbs.length := by
  induction limbs generalizing remainder with
  | nil => rfl
  | cons limb rest ih => simp [divLimbs, ih]

/-- The last remainder is below the divisor, as every one on the way is. -/
theorem divLimbs_remainder_lt {divisor : UInt64} {remainder : Nat}
    (h : remainder < divisor.toNat) (limbs : List UInt64) :
    (divLimbs divisor limbs remainder).2 < divisor.toNat := by
  induction limbs generalizing remainder with
  | nil => exact h
  | cons limb rest ih => exact ih (Nat.mod_lt _ (by omega))

/-- A partial dividend is below the divisor moved up by one limb, since the remainder before it is
below the divisor. -/
theorem partialDividend_lt {divisor : UInt64} {remainder : Nat} (h : remainder < divisor.toNat)
    (limb : UInt64) : UInt64.size * remainder + limb.toNat < divisor.toNat * UInt64.size := by
  have hlimb := limb.toNat_lt
  have hstep := Nat.mul_le_mul_left UInt64.size h
  simp only [UInt64.size] at *
  omega

/-- So a partial quotient fits in a limb. -/
theorem partialQuotient_lt {divisor : UInt64} {remainder : Nat} (h : remainder < divisor.toNat)
    (limb : UInt64) :
    (UInt64.size * remainder + limb.toNat) / divisor.toNat < UInt64.size :=
  Nat.div_lt_of_lt_mul (partialDividend_lt h limb)

/-- The quotient times the divisor, with the remainder, is what was divided: the limbs with the
incoming remainder above them. -/
theorem divLimbs_value {divisor : UInt64} {remainder : Nat}
    (h : remainder < divisor.toNat) (limbs : List UInt64) :
    divisor.toNat * limbsValue (divLimbs divisor limbs remainder).1.reverse +
        (divLimbs divisor limbs remainder).2 =
      UInt64.size ^ limbs.length * remainder + limbsValue limbs.reverse := by
  induction limbs generalizing remainder with
  | nil => simp [divLimbs, limbsValue]
  | cons limb rest ih =>
    -- The partial quotient is kept in a limb without loss.
    have hquotient : (UInt64.ofNat ((UInt64.size * remainder + limb.toNat) / divisor.toNat)).toNat =
        (UInt64.size * remainder + limb.toNat) / divisor.toNat :=
      UInt64.toNat_ofNat_of_lt (partialQuotient_lt h limb)
    have hrest := ih (Nat.mod_lt (UInt64.size * remainder + limb.toNat) (by omega))
    have hsplit := Nat.div_add_mod (UInt64.size * remainder + limb.toNat) divisor.toNat
    simp only [divLimbs, limbsValue_reverse_cons, length_divLimbs, hquotient, List.length_cons,
      pow_succ]
    -- From here on the partial quotient and what is passed on are known by the equation alone.
    generalize (UInt64.size * remainder + limb.toNat) / divisor.toNat = partialQuotient at *
    generalize (UInt64.size * remainder + limb.toNat) % divisor.toNat = passedOn at *
    calc divisor.toNat * (limbsValue (divLimbs divisor rest passedOn).1.reverse +
            UInt64.size ^ rest.length * partialQuotient) + (divLimbs divisor rest passedOn).2
        = UInt64.size ^ rest.length * (divisor.toNat * partialQuotient + passedOn) +
            limbsValue rest.reverse := by linear_combination hrest
      _ = UInt64.size ^ rest.length * (UInt64.size * remainder + limb.toNat) +
            limbsValue rest.reverse := by rw [hsplit]
      _ = _ := by ring

/-! ## Quotient and remainder -/

/-- There is a quotient unless the divisor is zero. -/
theorem divRem?_eq_none_iff {a : UInt256} {divisor : UInt64} :
    a.divRem? divisor = none ↔ divisor = 0 := by
  simp [divRem?]

theorem toNat_pos_of_ne_zero {divisor : UInt64} (h : divisor ≠ 0) : 0 < divisor.toNat :=
  UInt64.lt_iff_toNat_lt.mp (UInt64.pos_iff_ne_zero.mpr h)

/-- Quotient and remainder are those of the numbers. -/
theorem divRem?_exact {a quotient : UInt256} {divisor remainder : UInt64}
    (h : a.divRem? divisor = some (quotient, remainder)) :
    quotient.toNat = a.toNat / divisor.toNat ∧ remainder.toNat = a.toNat % divisor.toNat := by
  simp only [divRem?, Option.ite_none_left_eq_some, Option.some.injEq, Prod.mk.injEq] at h
  obtain ⟨hdivisor, rfl, rfl⟩ := h
  have hpositive := toNat_pos_of_ne_zero hdivisor
  have hvalue := divLimbs_value hpositive a.limbs.reverse
  have hlt := divLimbs_remainder_lt hpositive a.limbs.reverse
  have hremainder : (UInt64.ofNat (divLimbs divisor a.limbs.reverse 0).2).toNat =
      (divLimbs divisor a.limbs.reverse 0).2 :=
    UInt64.toNat_ofNat_of_lt (Nat.lt_trans hlt divisor.toNat_lt)
  rw [List.reverse_reverse, limbsValue_limbs, Nat.mul_zero, Nat.zero_add] at hvalue
  rw [toNat_ofLimbs (by simp [limbs]), hremainder]
  -- The equation and the bound on the remainder leave one quotient.
  exact ⟨(Nat.div_eq_of_lt_le (by rw [Nat.mul_comm]; omega)
      (by rw [Nat.succ_mul, Nat.mul_comm]; omega)).symm,
    by rw [← hvalue, Nat.mul_add_mod, Nat.mod_eq_of_lt hlt]⟩

end UInt256

end BridgeMint
