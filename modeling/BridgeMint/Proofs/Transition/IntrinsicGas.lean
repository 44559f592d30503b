import BridgeMint.Proofs.Gas
import BridgeMint.Proofs.Transition.Approval

/-!
# What a message costs before it runs

The price of a message is computed with two products and two sums that each stop at the greatest 64-bit
number.  Cutting off on the way comes to the same as cutting off once at the end: the result is the
exact price, or the greatest number if that is less.  So a message whose limit is below that number
pays the exact price.
-/

namespace BridgeMint

namespace GasSchedule

/-! ## The exact price -/

/-- The price of a message in integers: that of the call or the creation, of the zero bytes of its
data and of the others. -/
def exactGas (schedule : GasSchedule) (data : Bytes) (isCreation : Bool) : Nat :=
  (if isCreation then schedule.txCreate else schedule.txBase).toNat +
    data.count 0 * schedule.perZeroByte.toNat +
    data.countP (· ≠ 0) * schedule.perNonzeroByte.toNat

variable {schedule : GasSchedule} {data more : Bytes} {isCreation : Bool}

/-- Every byte is zero or not. -/
theorem count_zero_add_countP (data : Bytes) :
    data.count 0 + data.countP (· ≠ 0) = data.length := by
  rw [List.length_eq_countP_add_countP (· == (0 : UInt8)), List.count]
  congr 2
  funext byte
  simp

/-- The numbers of bytes of either kind fit in 64 bits, so that counting them is exact. -/
theorem toNat_intrinsicGas (h : data.length < 2 ^ 64) :
    (schedule.intrinsicGas data isCreation).toNat =
      min (2 ^ 64 - 1) (schedule.exactGas data isCreation) := by
  have hsplit := count_zero_add_countP data
  have hlength : (UInt64.ofNat data.length).toNat = data.length := UInt64.toNat_ofNat_of_lt h
  have hzeros : (UInt64.ofNat (data.count 0)).toNat = data.count 0 :=
    UInt64.toNat_ofNat_of_lt (by simp only [UInt64.size]; omega)
  -- The bytes that are not zero are counted as the rest, which is no difference below zero.
  have hnonzeros : (UInt64.ofNat data.length - UInt64.ofNat (data.count 0)).toNat =
      data.countP (· ≠ 0) := by
    rw [UInt64.toNat_sub_of_le _ _ (UInt64.le_iff_toNat_le.mpr (by omega)), hlength, hzeros]
    omega
  rw [intrinsicGas, exactGas, UInt64.toNat_saturatingAdd, UInt64.toNat_saturatingAdd,
    UInt64.toNat_saturatingMul, UInt64.toNat_saturatingMul, hzeros, hnonzeros]
  -- The four cuts are at the same number, so the last one decides.
  generalize data.count 0 * schedule.perZeroByte.toNat = zeroGas
  generalize data.countP (· ≠ 0) * schedule.perNonzeroByte.toNat = nonzeroGas
  omega

/-- The price depends on the data only through its length and the number of its zero bytes. -/
theorem intrinsicGas_perm {data' : Bytes} (h : data.Perm data') :
    schedule.intrinsicGas data isCreation = schedule.intrinsicGas data' isCreation := by
  rw [intrinsicGas, intrinsicGas, h.count_eq, h.length_eq]

/-- More data never cost less, in integers. -/
theorem exactGas_append :
    schedule.exactGas data isCreation ≤ schedule.exactGas (data ++ more) isCreation := by
  have hzeros : data.count 0 * schedule.perZeroByte.toNat ≤
      (data ++ more).count 0 * schedule.perZeroByte.toNat :=
    Nat.mul_le_mul_right _ (by rw [List.count_append]; exact Nat.le_add_right _ _)
  have hnonzeros : data.countP (· ≠ 0) * schedule.perNonzeroByte.toNat ≤
      (data ++ more).countP (· ≠ 0) * schedule.perNonzeroByte.toNat :=
    Nat.mul_le_mul_right _ (by rw [List.countP_append]; exact Nat.le_add_right _ _)
  exact Nat.add_le_add (Nat.add_le_add_left hzeros _) hnonzeros

/-- Nor do they with the prices cut off. -/
theorem intrinsicGas_append (h : (data ++ more).length < 2 ^ 64) :
    schedule.intrinsicGas data isCreation ≤ schedule.intrinsicGas (data ++ more) isCreation := by
  have hshorter : data.length < 2 ^ 64 := by
    rw [List.length_append] at h
    omega
  have hexact : schedule.exactGas data isCreation ≤ schedule.exactGas (data ++ more) isCreation :=
    exactGas_append
  rw [UInt64.le_iff_toNat_le, toNat_intrinsicGas h, toNat_intrinsicGas hshorter]
  omega

/-! ## What is charged -/

/-- A message that is approved is charged its price, and the price was not cut off if the limit of
the message is below the greatest number. -/
theorem charge_of_approve {message : Message} {s : Store} {cost : UInt256}
    (hlength : message.data.length < 2 ^ 64) (happrove : message.approve schedule s = .ok cost)
    (hlimit : message.gasLimit.toNat < 2 ^ 64 - 1) :
    ∃ meter, (GasMeter.start message.gasLimit).charge (message.intrinsicGas schedule) = .ok meter ∧
      meter.used.toNat = schedule.exactGas message.data message.isCreation := by
  -- The price is at most the limit, so it is below the number where it would have been cut off.
  have hintrinsic := (message.acceptable_of_approve happrove).intrinsic_le
  have hprice : (message.intrinsicGas schedule).toNat = _ := toNat_intrinsicGas hlength
  have hwithin := GasMeter.within_start message.gasLimit
  have hremaining := hwithin.remaining_add_used
  have hnothing : (GasMeter.start message.gasLimit).used.toNat = 0 := rfl
  -- A new meter has its whole limit left.
  have hfits : message.intrinsicGas schedule ≤ (GasMeter.start message.gasLimit).remaining := by
    rw [UInt64.le_iff_toNat_le]
    omega
  have hcharge := hwithin.charge_remaining hfits
  refine ⟨_, hcharge, ?_⟩
  have hused := GasMeter.toNat_used_of_charge hcharge
  omega

/-- The price of a message is exact up to the greatest 64-bit number: the zero bytes and the others
make up the data, the price is that of the integers or the greatest number if that is less, the order
of the data does not matter, more data never costs less, and a message that is approved with a limit
below the greatest number is charged the exact price. -/
theorem intrinsicGas_exact (schedule : GasSchedule) :
    (∀ data : Bytes, data.count 0 + data.countP (· ≠ 0) = data.length) ∧
    (∀ (data : Bytes) (isCreation : Bool), data.length < 2 ^ 64 →
      (schedule.intrinsicGas data isCreation).toNat =
        min (2 ^ 64 - 1) (schedule.exactGas data isCreation)) ∧
    (∀ (data data' : Bytes) (isCreation : Bool), data.Perm data' →
      schedule.intrinsicGas data isCreation = schedule.intrinsicGas data' isCreation) ∧
    (∀ (data more : Bytes) (isCreation : Bool), (data ++ more).length < 2 ^ 64 →
      schedule.intrinsicGas data isCreation ≤ schedule.intrinsicGas (data ++ more) isCreation) ∧
    ∀ (message : Message) (s : Store) (cost : UInt256), message.data.length < 2 ^ 64 →
      message.approve schedule s = .ok cost → message.gasLimit.toNat < 2 ^ 64 - 1 →
      ∃ meter,
        (GasMeter.start message.gasLimit).charge (message.intrinsicGas schedule) = .ok meter ∧
        meter.used.toNat = schedule.exactGas message.data message.isCreation := by
  refine ⟨?split, ?price, ?order, ?more, ?charged⟩
  case split => exact count_zero_add_countP
  case price => exact fun _ _ hlength => toNat_intrinsicGas hlength
  case order => exact fun _ _ _ hperm => intrinsicGas_perm hperm
  case more => exact fun _ _ _ hlength => intrinsicGas_append hlength
  case charged => exact fun _ _ _ hlength happrove hlimit => charge_of_approve hlength happrove hlimit

/-- Prices that overflow 64 bits twice: once for the zero bytes, and once more with the others. -/
def steepSchedule : GasSchedule :=
  ⟨21000, 53000, 0x8000000000000000, 0xffffffffffffffff, 100000⟩

/-- A creation with two bytes of data of each kind, under the usual prices. -/
def mixedCreation : Message :=
  ⟨.ofNat 7, none, 0, 0, 60000, 1, [0, 1, 0, 2]⟩

theorem intrinsicGas_exact_steep :
    (steepSchedule.intrinsicGas [0, 1, 0, 2] false).toNat = 2 ^ 64 - 1 ∧
    steepSchedule.intrinsicGas [0] false ≤ steepSchedule.intrinsicGas [0, 1] false ∧
    steepSchedule.intrinsicGas [0, 1] true = steepSchedule.intrinsicGas [1, 0] true ∧
    ∃ meter, (GasMeter.start 60000).charge (mixedCreation.intrinsicGas .standard) = .ok meter ∧
      meter.used.toNat = 53040 := by
  obtain ⟨-, hprice, horder, hmore, -⟩ := intrinsicGas_exact steepSchedule
  obtain ⟨-, -, -, -, hcharged⟩ := intrinsicGas_exact .standard
  have happrove : mixedCreation.approve .standard (.withBalances [(.ofNat 7, .ofNat 60000)]) =
      .ok (.ofNat 60000) := rfl
  exact ⟨hprice [0, 1, 0, 2] false (by decide), hmore [0] [1] false (by decide),
    horder [0, 1] [1, 0] true (.swap _ _ _), hcharged mixedCreation _ _ (by decide) happrove (by decide)⟩

end GasSchedule

end BridgeMint
