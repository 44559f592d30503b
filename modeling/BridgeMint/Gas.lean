import BridgeMint.CallError

/-!
# Gas

What running a message costs.  The schedule gives the prices; a meter counts what a message has used
of its limit.  Prices come from configuration and may be any 64-bit numbers, so sums and products
stop at the greatest one instead of wrapping around.
-/

namespace BridgeMint

namespace UInt64

/-- The sum, or the greatest 64-bit number when it does not fit. -/
def saturatingAdd (a b : UInt64) : UInt64 :=
  if a.toNat + b.toNat < UInt64.size then a + b else 0xffffffffffffffff

/-- The product, or the greatest 64-bit number when it does not fit. -/
def saturatingMul (a b : UInt64) : UInt64 :=
  if a.toNat * b.toNat < UInt64.size then a * b else 0xffffffffffffffff

end UInt64

/-! ## Prices -/

/-- The prices of a message. -/
structure GasSchedule where
  /-- For every call. -/
  txBase : UInt64
  /-- For every contract creation. -/
  txCreate : UInt64
  /-- For every zero byte of call data. -/
  perZeroByte : UInt64
  /-- For every other byte of call data. -/
  perNonzeroByte : UInt64
  /-- For a mint instruction. -/
  mint : UInt64
  deriving DecidableEq, Repr

namespace GasSchedule

def standard : GasSchedule :=
  ⟨21000, 53000, 4, 16, 100000⟩

instance : Inhabited GasSchedule := ⟨standard⟩

/-- What a message costs before anything runs: the base price and that of its data. -/
def intrinsicGas (schedule : GasSchedule) (data : Bytes) (isCreation : Bool) : UInt64 :=
  let base := if isCreation then schedule.txCreate else schedule.txBase
  let zeros := UInt64.ofNat (data.count 0)
  let nonzeros := UInt64.ofNat data.length - zeros
  -- Each step stops at the greatest number, and so does the whole.
  UInt64.saturatingAdd
    (UInt64.saturatingAdd base (UInt64.saturatingMul zeros schedule.perZeroByte))
    (UInt64.saturatingMul nonzeros schedule.perNonzeroByte)

end GasSchedule

/-! ## Metering -/

/-- What a message has used of its limit. -/
structure GasMeter where
  limit : UInt64
  used : UInt64
  deriving DecidableEq, Repr

namespace GasMeter

def start (limit : UInt64) : GasMeter := ⟨limit, 0⟩

def remaining (meter : GasMeter) : UInt64 :=
  meter.limit - meter.used

/-- Uses gas, or fails with the meter as it was; the failure tells how much would have been used, at
most the greatest 64-bit number. -/
def charge (meter : GasMeter) (amount : UInt64) : Except CallError GasMeter :=
  if meter.used.toNat + amount.toNat < UInt64.size then
    if meter.limit < meter.used + amount then
      .error (.outOfGas (meter.used + amount) meter.limit)
    else .ok { meter with used := meter.used + amount }
  else .error (.outOfGas 0xffffffffffffffff meter.limit)

/-- Uses all that is left. -/
def exhaust (meter : GasMeter) : GasMeter :=
  { meter with used := meter.limit }

end GasMeter

end BridgeMint
