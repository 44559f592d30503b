/-!
# Unsigned numbers of 256 bits

Balances, amounts, limits and gas prices.  A number is four limbs of sixty-four bits, lowest first,
and arithmetic works limb by limb with explicit carries: the checked operations answer `none` when
the exact result does not fit, the saturating ones then answer the nearest bound.  `UInt256.toNat`
is the number a value stands for.
-/

namespace BridgeMint

/-- An unsigned number of 256 bits: four limbs, lowest first. -/
structure UInt256 where
  limb0 : UInt64
  limb1 : UInt64
  limb2 : UInt64
  limb3 : UInt64
  deriving DecidableEq, Repr

namespace UInt256

/-! ## Values -/

/-- The limbs, lowest first. -/
def limbs (a : UInt256) : List UInt64 :=
  [a.limb0, a.limb1, a.limb2, a.limb3]

/-- The number a value stands for. -/
def toNat (a : UInt256) : Nat :=
  a.limb0.toNat + UInt64.size *
    (a.limb1.toNat + UInt64.size * (a.limb2.toNat + UInt64.size * a.limb3.toNat))

/-- The value with the given limbs, lowest first; missing limbs are zero and further ones are
dropped. -/
def ofLimbs (limbs : List UInt64) : UInt256 :=
  ⟨limbs.getD 0 0, limbs.getD 1 0, limbs.getD 2 0, limbs.getD 3 0⟩

def ofUInt64 (n : UInt64) : UInt256 :=
  ⟨n, 0, 0, 0⟩

/-- The low 256 bits of a natural number. -/
def ofNat (n : Nat) : UInt256 :=
  let rest₁ := n / UInt64.size
  let rest₂ := rest₁ / UInt64.size
  ⟨.ofNat n, .ofNat rest₁, .ofNat rest₂, .ofNat (rest₂ / UInt64.size)⟩

instance (n : Nat) : OfNat UInt256 n := ⟨ofNat n⟩

instance : Inhabited UInt256 := ⟨0⟩

/-- The greatest value, all bits set. -/
def max : UInt256 :=
  ⟨0xffffffffffffffff, 0xffffffffffffffff, 0xffffffffffffffff, 0xffffffffffffffff⟩

/-- A thousand million of the smallest unit. -/
def gwei : UInt256 := ofUInt64 1000000000

/-- A million million million of the smallest unit. -/
def ether : UInt256 := ofUInt64 1000000000000000000

def isZero (a : UInt256) : Bool :=
  a.limbs.all (· == 0)

/-- The value as a 64-bit number, if its upper limbs are zero. -/
def toUInt64? (a : UInt256) : Option UInt64 :=
  if a.limb1 = 0 ∧ a.limb2 = 0 ∧ a.limb3 = 0 then some a.limb0 else none

/-! ## Order -/

/-- Compares limb by limb, from the highest down. -/
instance : Ord UInt256 where
  compare a b :=
    (compare a.limb3 b.limb3).then <| (compare a.limb2 b.limb2).then <|
      (compare a.limb1 b.limb1).then <| compare a.limb0 b.limb0

instance : LT UInt256 := ⟨fun a b => compare a b = .lt⟩

instance : LE UInt256 := ⟨fun a b => compare a b ≠ .gt⟩

instance (a b : UInt256) : Decidable (a < b) := inferInstanceAs (Decidable (compare a b = .lt))

instance (a b : UInt256) : Decidable (a ≤ b) := inferInstanceAs (Decidable (compare a b ≠ .gt))

/-! ## Addition -/

/-- Adds two limbs and an incoming carry: the sum's low sixty-four bits and the outgoing carry. -/
def addLimb (a b : UInt64) (carry : Bool) : UInt64 × Bool :=
  let sum := a + b
  let total := sum + (if carry then 1 else 0)
  -- At most one of the two additions wraps around.
  (total, decide (sum < a) || decide (total < sum))

/-- The sum, or `none` when it does not fit. -/
def checkedAdd (a b : UInt256) : Option UInt256 :=
  let (s0, c0) := addLimb a.limb0 b.limb0 false
  let (s1, c1) := addLimb a.limb1 b.limb1 c0
  let (s2, c2) := addLimb a.limb2 b.limb2 c1
  let (s3, c3) := addLimb a.limb3 b.limb3 c2
  if c3 then none else some ⟨s0, s1, s2, s3⟩

/-- The sum, or the greatest value when it does not fit. -/
def saturatingAdd (a b : UInt256) : UInt256 :=
  (checkedAdd a b).getD max

instance : Add UInt256 := ⟨saturatingAdd⟩

/-! ## Subtraction -/

/-- Subtracts a limb and an incoming borrow: the difference modulo `2 ^ 64` and the outgoing
borrow. -/
def subLimb (a b : UInt64) (borrow : Bool) : UInt64 × Bool :=
  let difference := a - b
  let total := difference - (if borrow then 1 else 0)
  (total, decide (a < b) || decide (difference < (if borrow then 1 else 0)))

/-- The difference limb by limb, with the borrow left over at the top. -/
def borrowingSub (a b : UInt256) : UInt256 × Bool :=
  let (d0, c0) := subLimb a.limb0 b.limb0 false
  let (d1, c1) := subLimb a.limb1 b.limb1 c0
  let (d2, c2) := subLimb a.limb2 b.limb2 c1
  let (d3, c3) := subLimb a.limb3 b.limb3 c2
  (⟨d0, d1, d2, d3⟩, c3)

/-- The difference, or `none` when the second number is greater. -/
def checkedSub (a b : UInt256) : Option UInt256 :=
  if a < b then none else some (borrowingSub a b).1

/-- The difference, or zero when the second number is greater. -/
def saturatingSub (a b : UInt256) : UInt256 :=
  (checkedSub a b).getD 0

instance : Sub UInt256 := ⟨saturatingSub⟩

/-! ## Multiplication

Schoolbook multiplication: each limb of the first number is multiplied with all limbs of the second
and added into the result at its place.  Carries are exact naturals; that none of them needs more
than 128 bits is a statement about `rowProduct` and its parts, not an assumption. -/

/-- The product of two limbs with an incoming carry. -/
def rowProduct (a b : UInt64) (carry : Nat) : Nat :=
  a.toNat * b.toNat + carry

/-- The limb of the result so far, increased by the low half of a product. -/
def rowSum (acc : UInt64) (product : Nat) : Nat :=
  acc.toNat + product % UInt64.size

/-- What a place passes on to the next one. -/
def rowCarry (product sum : Nat) : Nat :=
  product / UInt64.size + sum / UInt64.size

/-- Adds `a` times the limbs `bs` into the limbs `acc`.  Places beyond the end of `acc` must stay
zero: `none` when one of them would not, or when a carry is left over. -/
def mulRow (a : UInt64) : (bs acc : List UInt64) → (carry : Nat) → Option (List UInt64)
  | [], acc, carry => if carry = 0 then some acc else none
  | b :: bs, [], carry => if rowProduct a b carry = 0 then mulRow a bs [] 0 else none
  | b :: bs, r :: acc, carry =>
    let product := rowProduct a b carry
    let sum := rowSum r product
    (mulRow a bs acc (rowCarry product sum)).map (UInt64.ofNat sum :: ·)

/-- Adds the product of the limbs `as` and `bs` into the limbs `acc`, one row for each limb of `as`,
every row one place further up. -/
def mulRows (bs : List UInt64) : (as acc : List UInt64) → Option (List UInt64)
  | [], acc => some acc
  | a :: as, acc =>
    match mulRow a bs acc 0 with
    | none => none
    | some [] => mulRows bs as []
    | some (r :: rest) => (mulRows bs as rest).map (r :: ·)

/-- The product, or `none` when it does not fit. -/
def checkedMul (a b : UInt256) : Option UInt256 :=
  (mulRows b.limbs a.limbs [0, 0, 0, 0]).map ofLimbs

/-- The product, or the greatest value when it does not fit. -/
def saturatingMul (a b : UInt256) : UInt256 :=
  (checkedMul a b).getD max

instance : Mul UInt256 := ⟨saturatingMul⟩

/-! ## Division by a small number -/

/-- Long division of limbs, highest first, by a divisor: the quotient's limbs, highest first, and the
remainder. -/
def divLimbs (divisor : UInt64) : (limbs : List UInt64) → (remainder : Nat) → List UInt64 × Nat
  | [], remainder => ([], remainder)
  | limb :: rest, remainder =>
    -- The remainder is below the divisor, so the partial quotient fits in a limb.
    let current := UInt64.size * remainder + limb.toNat
    let (quotient, last) := divLimbs divisor rest (current % divisor.toNat)
    (UInt64.ofNat (current / divisor.toNat) :: quotient, last)

/-- Quotient and remainder, or `none` for the divisor zero. -/
def divRem? (a : UInt256) (divisor : UInt64) : Option (UInt256 × UInt64) :=
  if divisor = 0 then none
  else
    let (quotient, remainder) := divLimbs divisor a.limbs.reverse 0
    some (ofLimbs quotient.reverse, UInt64.ofNat remainder)

end UInt256

end BridgeMint
