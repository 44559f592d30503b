import BridgeMint.Json.Number
import Mathlib.Data.Nat.Digits.Defs

/-!
# Integers written in JSON are read back

An integer is written as a decimal numeral without needless zeros, so it is read as a whole part and
nothing else, provided that what follows it does not go on with the numeral.  If it fits sixty-four
bits, with or without a sign, the numeral denotes it.
-/

namespace BridgeMint

namespace Json

/-! ## Decimal numerals -/

/-- What follows a numeral in a text does not continue it. -/
def EndsNumeral (rest : List Char) : Prop :=
  ∀ c ∈ rest.head?, c.isDigit = false ∧ c ≠ '.' ∧ c ≠ 'e' ∧ c ≠ 'E'

/-- The digits of a number start with a zero only if the number is zero. -/
theorem eq_zero_of_toDigits_zero {n : Nat} {digits : List Char}
    (h : Nat.toDigits 10 n = '0' :: digits) : n = 0 := by
  induction n using Nat.strongRecOn generalizing digits with
  | _ n ih =>
    by_cases hsmall : n < 10
    · rw [Nat.toDigits_of_lt_base hsmall] at h
      have hall : ∀ n < 10, Nat.digitChar n = '0' → n = 0 := by decide
      exact hall n hsmall (List.head_eq_of_cons_eq h)
    · rw [Nat.toDigits_of_base_le (by decide) (Nat.le_of_not_lt hsmall)] at h
      cases hfront : Nat.toDigits 10 (n / 10) with
      | nil => exact absurd hfront Nat.toDigits_ne_nil
      | cons c front =>
        -- The first digit is that of the number without its last digit.
        rw [hfront, List.cons_append, List.cons.injEq] at h
        obtain ⟨hfirst, -⟩ := h
        have hzero := ih (n / 10) (by omega) (hfirst ▸ hfront)
        omega

/-- A run of digits ends where the numeral ends. -/
theorem digitRun_append {digits rest : List Char} (hdigits : ∀ c ∈ digits, c.isDigit)
    (hrest : EndsNumeral rest) : digitRun (digits ++ rest) = (digits, rest) := by
  obtain ⟨htake, hdrop⟩ : rest.takeWhile Char.isDigit = [] ∧ rest.dropWhile Char.isDigit = rest := by
    cases rest with
    | nil => exact ⟨rfl, rfl⟩
    | cons c rest =>
      obtain ⟨hdigit, -⟩ := hrest c rfl
      simp [hdigit]
  rw [digitRun, List.takeWhile_append_of_pos hdigits, List.dropWhile_append_of_pos hdigits, htake,
    hdrop, List.append_nil]

/-- The digits of a number are read as its whole part. -/
theorem wholePart?_toDigits {rest : List Char} (n : Nat) (hrest : EndsNumeral rest) :
    wholePart? (Nat.toDigits 10 n ++ rest) = some (Nat.toDigits 10 n, rest) := by
  have hdigits : ∀ c ∈ Nat.toDigits 10 n, c.isDigit := fun c hc =>
    Nat.isDigit_of_mem_toDigits (by decide) (by decide) hc
  have hrun : digitRun? (Nat.toDigits 10 n ++ rest) = some (Nat.toDigits 10 n, rest) := by
    rw [digitRun?, digitRun_append hdigits hrest]
    cases hcase : Nat.toDigits 10 n with
    | nil => exact absurd hcase Nat.toDigits_ne_nil
    | cons => rfl
  rw [wholePart?, hrun]
  split
  case h_1 c digits rest' hzero =>
    -- A numeral of several digits that starts with a zero would be the numeral of zero.
    obtain ⟨hcase, -⟩ := Prod.mk.inj (Option.some.inj hzero)
    rw [eq_zero_of_toDigits_zero hcase] at hcase
    cases hcase
  case h_2 => rfl

/-! ## Numerals of integers -/

/-- The numeral of an integer taken apart. -/
def Numeral.ofInt (n : Int) : Numeral :=
  ⟨decide (n < 0), Nat.toDigits 10 n.natAbs, none, none⟩

/-- An integer is written as a sign, if it is negative, and the digits of its absolute value. -/
theorem toList_toString (n : Int) :
    (toString n).toList = (if n < 0 then ['-'] else []) ++ Nat.toDigits 10 n.natAbs := by
  have hrepr : ∀ m : Nat, (Nat.repr m).toList = Nat.toDigits 10 m := fun m => by
    rw [Nat.repr_eq_ofList_toDigits, String.toList_ofList]
  cases n with
  | ofNat m =>
    show (Nat.repr m).toList = _
    rw [if_neg (by simp), hrepr]
    rfl
  | negSucc m =>
    show ("-" ++ Nat.repr (m + 1)).toList = _
    rw [if_pos (Int.negSucc_lt_zero m), String.toList_append, hrepr]
    rfl

/-- A written integer is read as its numeral. -/
theorem numeral?_toString {rest : List Char} (n : Int) (hrest : EndsNumeral rest) :
    numeral? ((toString n).toList ++ rest) = some (Numeral.ofInt n, rest) := by
  have hwhole := wholePart?_toDigits n.natAbs hrest
  -- What follows has neither a point nor an exponent.
  have hfraction : fraction? rest = some (none, rest) := by
    cases rest with
    | nil => rfl
    | cons c rest =>
      obtain ⟨-, hpoint, -, -⟩ := hrest c rfl
      rw [fraction?]
      exact fun _ h => hpoint (List.head_eq_of_cons_eq h)
  have hexponent : exponent? rest = some (none, rest) := by
    cases rest with
    | nil => rfl
    | cons c rest =>
      obtain ⟨-, -, hlower, hupper⟩ := hrest c rfl
      rw [exponent?]
      · exact fun _ h => hlower (List.head_eq_of_cons_eq h)
      · exact fun _ h => hupper (List.head_eq_of_cons_eq h)
  rw [toList_toString]
  by_cases hnegative : n < 0
  · rw [if_pos hnegative, List.append_assoc, List.singleton_append, numeral?]
    simp [hwhole, hfraction, hexponent, Numeral.ofInt, hnegative]
  · rw [if_neg hnegative, List.nil_append, numeral?]
    · simp [hwhole, hfraction, hexponent, Numeral.ofInt, hnegative]
    · -- The numeral starts with a digit, not with a sign.
      intro digits hsign
      cases hcase : Nat.toDigits 10 n.natAbs with
      | nil => exact absurd hcase Nat.toDigits_ne_nil
      | cons c front =>
        rw [hcase, List.cons_append] at hsign
        have hdigit : c.isDigit := Nat.isDigit_of_mem_toDigits (by decide) (by decide)
          (hcase ▸ List.mem_cons_self)
        rw [List.head_eq_of_cons_eq hsign] at hdigit
        exact absurd hdigit (by decide)

/-- The numeral of an integer of sixty-four bits, with or without a sign, denotes it. -/
theorem Numeral.toDatum_ofInt {n : Int} (hlow : -2 ^ 63 ≤ n) (hhigh : n < 2 ^ 64) :
    (Numeral.ofInt n).toDatum = .integer n := by
  have hvalue : digitValue 0 (Nat.toDigits 10 n.natAbs) = n.natAbs :=
    Nat.ofDigitChars_toDigits (by decide) (by decide)
  -- With a sign the value fits 63 bits, without one it fits 64.
  have hint : (Numeral.ofInt n).toInt? = some n := by
    simp only [Numeral.toInt?, Numeral.ofInt, hvalue, decide_eq_true_eq, UInt64.size]
    split
    case isTrue hnegative => rw [if_pos (by omega)]; congr; omega
    case isFalse => rw [if_pos (by omega)]; congr; omega
  rw [Numeral.toDatum, hint]

end Json

end BridgeMint
