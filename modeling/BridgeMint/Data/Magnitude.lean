/-!
# How large a number with a fraction may be

Numbers with a fraction are kept with fifty-three significant bits, and a text that spells one too
large for that form is refused.  The tests here are exact and work on natural numbers.
-/

namespace BridgeMint

namespace Magnitude

def twoTo (n : Nat) : Nat := Nat.pow 2 n

def tenTo (n : Nat) : Nat := Nat.pow 10 n

/-- The nearest number with at most fifty-three significant bits; a tie goes to the even one. -/
def nearest (n : Nat) : Nat :=
  let surplus := n.log2 + 1 - 53
  let unit := twoTo surplus
  let low := n / unit
  let rest := 2 * (n % unit)
  if rest < unit ∨ (rest = unit ∧ low % 2 = 0) then low * unit else (low + 1) * unit

/-- The least number that is rounded up beyond the greatest one. -/
def limit : Nat :=
  twoTo 1024 - twoTo 970

/-- The greatest power of ten within the limit. -/
def maxExponent : Nat := 308

/-- Whether `significand * 10 ^ exponent` is too large when it is computed as the rounded product of
the rounded factors. -/
def productTooLarge (significand exponent : Nat) : Bool :=
  significand ≠ 0 ∧
    (maxExponent < exponent ∨ limit ≤ nearest significand * nearest (tenTo exponent))

/-- Whether `10 ^ exponent` times the number spelled by `count` digits with the value `significand`
is too large when it is rounded once. -/
def tooLarge (count significand : Nat) (exponent : Int) : Bool :=
  if significand = 0 then false
  else if exponent + count ≤ maxExponent then false
  else if maxExponent + 1 < exponent + significand.log2 / 4 then true
  else if 0 ≤ exponent then limit ≤ significand * tenTo exponent.toNat
  else limit * tenTo (-exponent).toNat ≤ significand

end Magnitude

end BridgeMint
