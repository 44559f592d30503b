import BridgeMint.Bytes

/-!
# The Keccak-256 digest

The sponge with a rate of 136 bytes over the 1600-bit permutation of twenty-four rounds, with the
padding that starts with the bit pattern `01` and no domain bits.  The state is twenty-five lanes of
sixty-four bits; lane `x + 5 * y` stands in column `x` of row `y`.
-/

namespace BridgeMint

namespace Keccak

/-- The twenty-five lanes of the permutation's state. -/
abbrev Lanes := Array UInt64

/-- The lane in column `x` of row `y`, both taken modulo five. -/
def Lanes.at (s : Lanes) (x y : Nat) : UInt64 :=
  s.getD (x % 5 + 5 * (y % 5)) 0

/-- The state whose lane in column `x` of row `y` is `f x y`. -/
def Lanes.build (f : (x y : Nat) → UInt64) : Lanes :=
  Array.ofFn fun i : Fin 25 => f (i.val % 5) (i.val / 5)

/-- A lane turned left by `n` places, `n` below sixty-four. -/
def turnLeft (lane : UInt64) (n : Nat) : UInt64 :=
  if n = 0 then lane
  else (lane <<< UInt64.ofNat n) ||| (lane >>> UInt64.ofNat (64 - n))

/-! ## Constants of the permutation -/

/-- How far each lane is turned, by position. -/
def turns : List Nat :=
  [0, 1, 62, 28, 27, 36, 44, 6, 55, 20, 3, 10, 43, 25, 39, 41, 45, 15, 21, 8, 18, 2, 61, 56, 14]

/-- The constant mixed into the first lane in each round. -/
def roundConstants : List UInt64 :=
  [0x0000000000000001, 0x0000000000008082, 0x800000000000808a, 0x8000000080008000,
   0x000000000000808b, 0x0000000080000001, 0x8000000080008081, 0x8000000000008009,
   0x000000000000008a, 0x0000000000000088, 0x0000000080008009, 0x000000008000000a,
   0x000000008000808b, 0x800000000000008b, 0x8000000000008089, 0x8000000000008003,
   0x8000000000008002, 0x8000000000000080, 0x000000000000800a, 0x800000008000000a,
   0x8000000080008081, 0x8000000000008080, 0x0000000080000001, 0x8000000080008008]

/-! ## The steps of a round -/

/-- Mixes into every lane the parities of two neighbouring columns. -/
def mixColumns (s : Lanes) : Lanes :=
  let parity : Array UInt64 := Array.ofFn fun x : Fin 5 =>
    s.at x.val 0 ^^^ s.at x.val 1 ^^^ s.at x.val 2 ^^^ s.at x.val 3 ^^^ s.at x.val 4
  let column (x : Nat) : UInt64 := parity.getD (x % 5) 0
  let effect : Array UInt64 := Array.ofFn fun x : Fin 5 =>
    column (x.val + 4) ^^^ turnLeft (column (x.val + 1)) 1
  Lanes.build fun x y => s.at x y ^^^ effect.getD x 0

/-- Turns every lane by its own amount and moves it to its new place: the lane now in column `x` of
row `y` comes from column `x + 3 * y` of row `x`. -/
def turnAndMove (s : Lanes) : Lanes :=
  Lanes.build fun x y =>
    let source := (x + 3 * y) % 5
    turnLeft (s.at source x) (turns.getD (source + 5 * x) 0)

/-- Combines each lane with the two to its right in the same row. -/
def combineRows (s : Lanes) : Lanes :=
  Lanes.build fun x y => s.at x y ^^^ (~~~ s.at (x + 1) y &&& s.at (x + 2) y)

/-- One round of the permutation. -/
def round (s : Lanes) (constant : UInt64) : Lanes :=
  (combineRows (turnAndMove (mixColumns s))).modify 0 (· ^^^ constant)

/-- The permutation: all rounds in order. -/
def permute (s : Lanes) : Lanes :=
  roundConstants.foldl round s

/-! ## The sponge -/

/-- How many bytes one block holds. -/
def rate : Nat := 136

/-- The message with its padding: a one byte, zeros, and the top bit of the last byte set, up to the
next whole number of blocks. -/
def pad (message : Bytes) : Bytes :=
  let missing := rate - message.length % rate
  -- With a single byte missing, that byte holds both ends of the padding.
  if missing = 1 then message ++ [0x81]
  else message ++ 0x01 :: (List.replicate (missing - 2) 0 ++ [0x80])

/-- The lanes written by a block, least significant byte first; `count` bounds their number. -/
def blockLanes : (count : Nat) → Bytes → List UInt64
  | 0, _ => []
  | count + 1, block =>
    UInt64.ofNat (Bytes.littleEndianValue (block.take 8)) :: blockLanes count (block.drop 8)

/-- Takes one block into the state. -/
def absorbBlock (s : Lanes) (block : Bytes) : Lanes :=
  let lanes := (blockLanes (rate / 8) block).toArray
  permute (Lanes.build fun x y => s.at x y ^^^ lanes.getD (x + 5 * y) 0)

/-- Takes `count` blocks into the state, one after another. -/
def absorb : (count : Nat) → Lanes → Bytes → Lanes
  | 0, s, _ => s
  | count + 1, s, message => absorb count (absorbBlock s (message.take rate)) (message.drop rate)

/-- The first four lanes of a state, as bytes. -/
def squeeze (s : Lanes) : Bytes :=
  [0, 1, 2, 3].flatMap fun x => Bytes.littleEndian 8 (s.at x 0).toNat

/-- The Keccak-256 digest of a message: thirty-two bytes. -/
def digest (message : Bytes) : Bytes :=
  let padded := pad message
  squeeze (absorb (padded.length / rate) (Lanes.build fun _ _ => 0) padded)

theorem length_digest (message : Bytes) : (digest message).length = 32 := by
  simp [digest, squeeze]

end Keccak

end BridgeMint
