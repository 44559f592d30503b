import BridgeMint.Proofs.Gas
import BridgeMint.Proofs.UInt256.Product
import BridgeMint.Transition

/-!
# What the checks decide

The checks of a message compute with bounded numbers; what they decide is stated here with exact ones.
A message is refused for the first of four conditions that fails.
-/

namespace BridgeMint

namespace Message

/-- What the sender must hold: the gas limit at its price, and the value. -/
def need (message : Message) : Nat :=
  message.gasLimit.toNat * message.gasPrice.toNat + message.value.toNat

/-- The four conditions under which a message may run. -/
structure Acceptable (message : Message) (schedule : GasSchedule) (s : Store) : Prop where
  nonce_eq : message.nonce = s.nonce message.sender
  nonce_lt : message.nonce.toNat < 2 ^ 64 - 1
  intrinsic_le : (message.intrinsicGas schedule).toNat ≤ message.gasLimit.toNat
  need_le : message.need ≤ (s.balance message.sender).toNat

/-- The error for the first of the conditions that fails.  A need that does not fit in 256 bits is
reported as the greatest number. -/
def rejection? (message : Message) (schedule : GasSchedule) (s : Store) : Option LedgerError :=
  if message.nonce ≠ s.nonce message.sender then
    some (.wrongNonce message.sender (s.nonce message.sender) message.nonce)
  else if ¬ message.nonce.toNat < 2 ^ 64 - 1 then
    some (.nonceExhausted message.sender message.nonce)
  else if ¬ (message.intrinsicGas schedule).toNat ≤ message.gasLimit.toNat then
    some (.intrinsicGas (message.intrinsicGas schedule) message.gasLimit)
  else if ¬ message.need ≤ (s.balance message.sender).toNat then
    some (.insufficientFunds message.sender (s.balance message.sender)
      (.ofNat (min message.need (UInt256.size - 1))))
  else none

/-- Nothing is wrong exactly if all four conditions hold. -/
theorem rejection?_eq_none {message : Message} {schedule : GasSchedule} {s : Store} :
    message.rejection? schedule s = none ↔ message.Acceptable schedule s := by
  unfold rejection?
  constructor
  · intro h
    -- The conditions are gone through in the order in which they are tested.
    split at h
    · cases h
    · next hnonce =>
      split at h
      · cases h
      · next hlast =>
        split at h
        · cases h
        · next hintrinsic =>
          split at h
          · cases h
          · next hneed =>
            exact ⟨not_not.mp hnonce, not_not.mp hlast, not_not.mp hintrinsic, not_not.mp hneed⟩
  · rintro ⟨hnonce, hlast, hintrinsic, hneed⟩
    rw [if_neg (not_not.mpr hnonce), if_neg (not_not.mpr hlast), if_neg (not_not.mpr hintrinsic),
      if_neg (not_not.mpr hneed)]

/-! ## The funds -/

/-- The cost of the gas limit is exact if it fits in 256 bits. -/
theorem gasCost?_eq_some {message : Message} {cost : UInt256} :
    message.gasCost? = some cost ↔
      message.gasLimit.toNat * message.gasPrice.toNat = cost.toNat := by
  rw [gasCost?, UInt256.checkedMul_eq_some_iff, UInt256.toNat_ofUInt64]

/-- So is the need. -/
theorem totalCost?_eq_some {message : Message} {total : UInt256} :
    message.totalCost? = some total ↔ message.need = total.toNat := by
  rw [totalCost?, Option.bind_eq_some_iff]
  constructor
  · rintro ⟨cost, hcost, htotal⟩
    rw [need, gasCost?_eq_some.mp hcost, UInt256.checkedAdd_eq_some_iff.mp htotal]
  · intro hneed
    -- The cost of the gas is at most the need, so it fits as well.
    have htotal := total.toNat_lt_size
    have hfits : message.gasLimit.toNat * message.gasPrice.toNat < UInt256.size := by
      rw [need] at hneed
      omega
    have hcost := UInt256.toNat_ofNat_of_lt hfits
    refine ⟨.ofNat _, gasCost?_eq_some.mpr hcost.symm, ?_⟩
    rw [UInt256.checkedAdd_eq_some_iff, hcost]
    exact hneed

/-- The total that a refusal reports. -/
theorem totalCost?_getD (message : Message) :
    message.totalCost?.getD .max = .ofNat (min message.need (UInt256.size - 1)) := by
  have hsize : 0 < UInt256.size := by simp [UInt256.size]
  have hexact : ∀ total, message.totalCost? = some total ↔ message.need = total.toNat := fun _ =>
    totalCost?_eq_some
  rw [← UInt256.toNat_inj, UInt256.toNat_ofNat_of_lt (by omega)]
  by_cases hfits : message.need < UInt256.size
  · rw [UInt256.eq_some_of_exact hexact hfits, Option.getD_some, UInt256.toNat_ofNat_of_lt hfits]
    omega
  · rw [(UInt256.eq_none_iff_of_exact hexact).mpr (Nat.le_of_not_lt hfits), Option.getD_none,
      UInt256.toNat_max]
    omega

/-- The part of the checks that is about the funds: it answers the cost of the gas limit. -/
def payable (message : Message) (held : UInt256) : Except LedgerError UInt256 :=
  match message.gasCost?, message.totalCost? with
  | some cost, some need =>
    if need ≤ held then .ok cost else .error (.insufficientFunds message.sender held need)
  | _, need => .error (.insufficientFunds message.sender held (need.getD .max))

/-- Whether the funds suffice depends on the exact need only. -/
theorem payable_eq (message : Message) (held : UInt256) :
    message.payable held =
      if message.need ≤ held.toNat then
        .ok (.ofNat (message.gasLimit.toNat * message.gasPrice.toNat))
      else
        .error (.insufficientFunds message.sender held
          (.ofNat (min message.need (UInt256.size - 1)))) := by
  unfold payable
  by_cases hneed : message.need ≤ held.toNat
  · rw [if_pos hneed]
    have hheld := held.toNat_lt_size
    have hfits : message.need < UInt256.size := by omega
    have hgas : message.gasLimit.toNat * message.gasPrice.toNat < UInt256.size := by
      rw [need] at hfits
      omega
    -- What is at most a balance fits, so neither computation ends without a number.
    have htotal := UInt256.eq_some_of_exact (fun _ => totalCost?_eq_some) hfits
    have hcost := UInt256.eq_some_of_exact (fun _ => gasCost?_eq_some) hgas
    have hle : UInt256.ofNat message.need ≤ held := by
      rw [UInt256.le_iff_toNat_le, UInt256.toNat_ofNat_of_lt hfits]
      exact hneed
    rw [htotal, hcost]
    exact if_pos hle
  · rw [if_neg hneed, ← totalCost?_getD]
    -- The needed total is reported as it is, or as the greatest number if it does not fit.
    cases hcost : message.gasCost? with
    | none => rfl
    | some cost =>
      cases htotal : message.totalCost? with
      | none => rfl
      | some total =>
        have hle : ¬ total ≤ held := by
          rw [UInt256.le_iff_toNat_le, ← totalCost?_eq_some.mp htotal]
          exact hneed
        exact if_neg hle

/-! ## The checks -/

theorem nonce_eq_max_iff (message : Message) :
    message.nonce = 0xffffffffffffffff ↔ ¬ message.nonce.toNat < 2 ^ 64 - 1 := by
  have hlt := UInt64.toNat_lt message.nonce
  rw [← UInt64.toNat_inj]
  simp only [UInt64.reduceToNat]
  omega

/-- The checks decide as the exact conditions say, and give the exact cost of the gas limit. -/
theorem approve_eq (message : Message) (schedule : GasSchedule) (s : Store) :
    (∃ e, message.rejection? schedule s = some e ∧ message.approve schedule s = .error e) ∨
      ∃ cost, message.rejection? schedule s = none ∧ message.approve schedule s = .ok cost ∧
        cost.toNat = message.gasLimit.toNat * message.gasPrice.toNat := by
  unfold approve rejection?
  -- The four conditions in their order; each is reached only if those before it hold.
  by_cases hnonce : message.nonce ≠ s.nonce message.sender
  · left
    exact ⟨_, if_pos hnonce, if_pos hnonce⟩
  · rw [if_neg hnonce, if_neg hnonce]
    have hlast := message.nonce_eq_max_iff
    by_cases hmax : message.nonce = 0xffffffffffffffff
    · left
      exact ⟨_, if_pos (hlast.mp hmax), if_pos hmax⟩
    · rw [if_neg hmax, if_neg fun h => hmax (hlast.mpr h)]
      by_cases hintrinsic : message.gasLimit < message.intrinsicGas schedule
      · left
        refine ⟨_, if_pos ?_, if_pos hintrinsic⟩
        rw [UInt64.lt_iff_toNat_lt] at hintrinsic
        omega
      · simp only [if_neg hintrinsic]
        rw [UInt64.lt_iff_toNat_lt] at hintrinsic
        rw [if_neg (by omega)]
        have hfunds := message.payable_eq (s.balance message.sender)
        by_cases hneed : message.need ≤ (s.balance message.sender).toNat
        · right
          rw [if_pos hneed] at hfunds
          have hheld := (s.balance message.sender).toNat_lt_size
          have hgas : message.gasLimit.toNat * message.gasPrice.toNat < UInt256.size := by
            rw [need] at hneed
            omega
          exact ⟨_, if_neg (not_not.mpr hneed), hfunds, UInt256.toNat_ofNat_of_lt hgas⟩
        · left
          rw [if_neg hneed] at hfunds
          exact ⟨_, if_pos hneed, hfunds⟩

/-- A refusal is for the first condition that fails. -/
theorem rejection?_of_approve (message : Message) {schedule : GasSchedule} {s : Store} {e : LedgerError}
    (h : message.approve schedule s = .error e) : message.rejection? schedule s = some e := by
  rcases approve_eq message schedule s with ⟨e', hrejected, herror⟩ | ⟨cost, -, hok, -⟩
  · rw [h] at herror
    cases herror
    exact hrejected
  · rw [h] at hok
    cases hok

/-- The nonce of a message that may run has a successor, one above the nonce of its sender. -/
theorem toNat_next_nonce {message : Message} {s : Store} (hnonce : message.nonce = s.nonce message.sender)
    (hlast : message.nonce.toNat < 2 ^ 64 - 1) :
    (message.nonce + 1).toNat = (s.nonce message.sender).toNat + 1 := by
  rw [← hnonce]
  exact UInt64.toNat_add_one_of_lt (Nat.lt_sub_iff_add_lt.mp hlast)

theorem acceptable_of_approve (message : Message) {schedule : GasSchedule} {s : Store} {cost : UInt256}
    (h : message.approve schedule s = .ok cost) : message.Acceptable schedule s := by
  rcases approve_eq message schedule s with ⟨e, -, herror⟩ | ⟨-, hnone, -, -⟩
  · rw [h] at herror
    cases herror
  · exact rejection?_eq_none.mp hnone

/-- The cost of the gas limit that an approved message pays is exact. -/
theorem toNat_of_approve (message : Message) {schedule : GasSchedule} {s : Store} {cost : UInt256}
    (h : message.approve schedule s = .ok cost) :
    cost.toNat = message.gasLimit.toNat * message.gasPrice.toNat := by
  rcases approve_eq message schedule s with ⟨e, -, herror⟩ | ⟨exact', -, hok, hcost⟩
  · rw [h] at herror
    cases herror
  · rw [h] at hok
    cases hok
    exact hcost

end Message

end BridgeMint
