import BridgeMint.Proofs.UInt256.Grammar

/-!
# Printed numbers are canonical

Dividing by ten again and again makes a number smaller until nothing is left, and the remainders are
the digits of its decimal numeral, which has no leading zeros.  Both forms in which a number is
printed are read back as that number, and a decimal text that was read is printed again without its
leading zeros.
-/

namespace BridgeMint

namespace UInt256

/-! ## Decimal numerals -/

/-- Decimal digits without their leading zeros.  A zero leads if a digit follows it, so one digit is
always left. -/
def withoutLeadingZeros : List Char → List Char
  | '0' :: c :: rest => withoutLeadingZeros (c :: rest)
  | digits => digits

/-- The decimal numeral of a number: its digits, highest first, without leading zeros. -/
structure DecimalNumeral (n : Nat) (digits : List Char) : Prop where
  nonempty : digits ≠ []
  allDigits : ∀ c ∈ digits, c.isDigit
  value : Nat.ofDigitChars 10 digits 0 = n
  leading : withoutLeadingZeros digits = digits

variable {digits : List Char}

/-- A digit is the numeral of its value. -/
theorem toDigits_of_isDigit {c : Char} (h : c.isDigit) :
    c.toNat - '0'.toNat < 10 ∧ Nat.toDigits 10 (c.toNat - '0'.toNat) = [c] := by
  obtain ⟨hlow, hhigh⟩ := Char.isDigit_iff_toNat.mp h
  have hzero : '0'.toNat = 48 := rfl
  have hnine : '9'.toNat = 57 := rfl
  have hlt : c.toNat - '0'.toNat < 10 := by omega
  have hchar : Nat.digitChar (c.toNat - '0'.toNat) = c := by
    apply Char.toNat_inj.mp
    rw [Nat.toNat_digitChar_of_lt_ten hlt]
    omega
  exact ⟨hlt, by rw [Nat.toDigits_of_lt_base hlt, hchar]⟩

/-- Digits after a number that is not zero go on with its numeral. -/
theorem toDigits_append {n : Nat} (hpositive : 0 < n) (hdigits : ∀ c ∈ digits, c.isDigit) :
    Nat.toDigits 10 (Nat.ofDigitChars 10 digits n) = Nat.toDigits 10 n ++ digits := by
  induction digits generalizing n with
  | nil => rw [Nat.ofDigitChars_nil, List.append_nil]
  | cons c rest ih =>
    -- One more digit goes on with the numeral, and the number stays positive.
    obtain ⟨hlt, hc⟩ := toDigits_of_isDigit (hdigits c (by simp))
    rw [Nat.ofDigitChars_cons, ih (by omega) fun d hd => hdigits d (by simp [hd]),
      ← Nat.toDigits_append_toDigits (by decide) hpositive hlt, hc, List.append_assoc,
      List.singleton_append]

/-- The numeral of the number that digits spell is these digits without their leading zeros. -/
theorem toDigits_ofDigitChars (hnonempty : digits ≠ []) (hdigits : ∀ c ∈ digits, c.isDigit) :
    Nat.toDigits 10 (Nat.ofDigitChars 10 digits 0) = withoutLeadingZeros digits := by
  fun_induction withoutLeadingZeros digits with
  | case1 c rest ih =>
    -- A leading zero adds nothing to the number.
    exact ih (by simp) fun d hd => hdigits d (by simp [hd])
  | case2 digits hleading =>
    cases digits with
    | nil => exact absurd rfl hnonempty
    | cons c rest =>
      obtain ⟨-, hc⟩ := toDigits_of_isDigit (hdigits c (by simp))
      rw [Nat.ofDigitChars_cons, Nat.mul_zero, Nat.zero_add]
      -- A single digit is the numeral of its value, also if it is zero.
      cases rest with
      | nil => rw [Nat.ofDigitChars_nil, hc]
      | cons d rest =>
        -- The first digit is no zero, so the others go on with its numeral.
        have hpositive : 0 < c.toNat - '0'.toNat := by
          apply Nat.pos_of_ne_zero
          intro hzero
          rw [hzero, Nat.toDigits_zero] at hc
          exact hleading d rest (by rw [List.head_eq_of_cons_eq hc])
        rw [toDigits_append hpositive fun e he => hdigits e (by simp [he]), hc,
          List.singleton_append]

/-- The digits of a number are its decimal numeral. -/
theorem decimalNumeral_toDigits (n : Nat) : DecimalNumeral n (Nat.toDigits 10 n) := by
  have hdigits : ∀ c ∈ Nat.toDigits 10 n, c.isDigit := fun c hc =>
    Nat.isDigit_of_mem_toDigits (by decide) (by decide) hc
  have hvalue : Nat.ofDigitChars 10 (Nat.toDigits 10 n) 0 = n :=
    Nat.ofDigitChars_toDigits (by decide) (by decide)
  refine ⟨Nat.toDigits_ne_nil, hdigits, hvalue, ?_⟩
  -- The numeral of what they spell is these digits again, so none of them leads as a zero.
  rw [← toDigits_ofDigitChars Nat.toDigits_ne_nil hdigits, hvalue]

/-! ## Division until nothing is left -/

/-- Dividing by ten until nothing is left comes to an end and leaves these digits, lowest first. -/
inductive DividesInto : UInt256 → List Char → Prop
  | done {a : UInt256} (zero : a.isZero) : DividesInto a []
  | step {a quotient : UInt256} {digit : UInt64} {digits : List Char} (nonzero : ¬ a.isZero)
      (divided : a.divRem? 10 = some (quotient, digit)) (rest : DividesInto quotient digits) :
      DividesInto a (Nat.digitChar digit.toNat :: digits)

/-- As many divisions as there are digits are enough. -/
theorem dividesInto_decimalDigits {fuel : Nat} {a : UInt256} (h : a.toNat < 10 ^ fuel) :
    DividesInto a (decimalDigits fuel a) := by
  induction fuel generalizing a with
  | zero => exact .done (isZero_iff.mpr (by omega))
  | succ fuel ih =>
    by_cases hzero : a.isZero
    · rw [decimalDigits, if_pos hzero]
      exact .done hzero
    · -- A tenth needs one division less.
      obtain ⟨quotient, digit, hdivided, hquotient, -, -⟩ := exists_divRem?_ten hzero
      rw [decimalDigits, if_neg hzero, hdivided]
      exact .step hzero hdivided (ih (by rw [pow_succ] at h; omega))

/-- Seventy-eight decimal digits are enough for 256 bits. -/
theorem length_decimal_le (a : UInt256) : a.decimal.length ≤ 78 := by
  have hfits : a.toNat < 10 ^ 78 := Nat.lt_trans a.toNat_lt_size (by decide)
  rw [← String.length_toList, toList_decimal]
  exact (Nat.length_toDigits_le_iff (by decide) (by decide)).mpr hfits

/-! ## Hexadecimal text -/

theorem toList_hexText (a : UInt256) :
    a.hexText.toList = '0' :: 'x' :: Hex.encodeWith Hex.lowerDigit a.toBytes := by
  simp [hexText, Hex.encodeMarked, Hex.encode]

/-- The sixty-four lower-case digits of a number spell it. -/
theorem hexDigits_spec (a : UInt256) :
    (Hex.encodeWith Hex.lowerDigit a.toBytes).length = 64 ∧
      (∀ c ∈ Hex.encodeWith Hex.lowerDigit a.toBytes, c ∈ "0123456789abcdef".toList) ∧
      Hex.value (Hex.encodeWith Hex.lowerDigit a.toBytes) = a.toNat := by
  have hlength := (Hex.spells_lower a.toBytes).length_eq
  rw [length_toBytes] at hlength
  refine ⟨hlength, ?lowerCase, ?value⟩
  case lowerCase =>
    have hall : ∀ n < 16, Hex.lowerDigit n ∈ "0123456789abcdef".toList := by decide
    intro c hc
    obtain ⟨n, hn, rfl⟩ := Hex.exists_of_mem_encodeWith hc
    exact hall n hn
  case value => rw [(Hex.spells_lower a.toBytes).value_eq, bigEndianValue_toBytes]

/-! ## What is printed is read back -/

theorem parse_decimal (a : UInt256) : parse a.decimal = .ok a := by
  obtain ⟨digits, hdecimal, hnonempty, hdigits, hvalue⟩ := exists_decimal_digits a
  rw [hdecimal, parse_decimalDigits hnonempty hdigits, hvalue, if_pos a.toNat_lt_size, ofNat_toNat]

theorem parse_hexText (a : UInt256) : parse a.hexText = .ok a := by
  obtain ⟨hlength, -, hvalue⟩ := hexDigits_spec a
  rw [parse_of_marked (.inl (toList_hexText a)) (Hex.spells_lower a.toBytes).allDigits,
    if_pos (by omega), hvalue, ofNat_toNat]

/-- What was read from decimal text is printed as that text without its leading zeros. -/
theorem toList_decimal_of_parse {text : String} {a : UInt256} (hunmarked : Unmarked text.toList)
    (hparse : parse text = .ok a) : a.decimal.toList = withoutLeadingZeros text.toList := by
  have hnumeral := numeral_of_parse hparse
  rw [toList_decimal]
  generalize a.toNat = n at hnumeral
  -- It was read as a numeral, and as one without a mark it spells the number in decimal digits.
  cases hnumeral with
  | hexadecimal marked => exact absurd marked (hunmarked _)
  | decimal _ nonempty allDigits => exact toDigits_ofDigitChars nonempty allDigits

/-- Printing is canonical and can be undone: dividing until nothing is left ends and leaves the
digits that are printed, the decimal numeral without leading zeros, of at most seventy-eight digits
and just a zero for zero; the hexadecimal text is a mark and sixty-four lower-case digits; both texts
are read back; and decimal text that is read as the number is the printed one but for leading
zeros. -/
theorem printing_canonical (a : UInt256) :
    (∃ digits, DividesInto a digits ∧
      a.decimal = if a.isZero then "0" else String.ofList digits.reverse) ∧
    (DecimalNumeral a.toNat a.decimal.toList ∧ a.decimal.length ≤ 78 ∧ (a.decimal = "0" ↔ a = 0)) ∧
    (∃ digits, a.hexText.toList = '0' :: 'x' :: digits ∧ digits.length = 64 ∧
      (∀ c ∈ digits, c ∈ "0123456789abcdef".toList) ∧ Hex.value digits = a.toNat) ∧
    (parse a.decimal = .ok a ∧ parse a.hexText = .ok a) ∧
    ∀ text : String, Unmarked text.toList → parse text = .ok a →
      a.decimal.toList = withoutLeadingZeros text.toList := by
  have hfits : a.toNat < 10 ^ 78 := Nat.lt_trans a.toNat_lt_size (by decide)
  have hnumeral : DecimalNumeral a.toNat a.decimal.toList :=
    toList_decimal a ▸ decimalNumeral_toDigits a.toNat
  have hzero : a.decimal = "0" ↔ a = 0 := by
    constructor
    · intro hdecimal
      -- A numeral spells one number, and this one spells zero.
      have hvalue := hnumeral.value
      rw [hdecimal] at hvalue
      exact toNat_inj.mp hvalue.symm
    · rintro rfl
      rfl
  refine ⟨?divided, ?numeral, ?hexadecimal, ?readBack, ?printedAgain⟩
  case divided => exact ⟨decimalDigits 78 a, dividesInto_decimalDigits hfits, rfl⟩
  case numeral => exact ⟨hnumeral, length_decimal_le a, hzero⟩
  case hexadecimal => exact ⟨_, toList_hexText a, hexDigits_spec a⟩
  case readBack => exact ⟨parse_decimal a, parse_hexText a⟩
  case printedAgain =>
    intro text hunmarked hparse
    exact toList_decimal_of_parse hunmarked hparse

/-- The first number of two limbs, read from text with leading zeros. -/
theorem printing_canonical_padded :
    Unmarked "0018446744073709551616".toList ∧
    parse "0018446744073709551616" = .ok ⟨0, 1, 0, 0⟩ ∧
    decimal ⟨0, 1, 0, 0⟩ = "18446744073709551616" ∧
    (decimal ⟨0, 1, 0, 0⟩).toList = withoutLeadingZeros "0018446744073709551616".toList := by
  have hunmarked : Unmarked "0018446744073709551616".toList := by decide
  have hparse : parse "0018446744073709551616" = .ok ⟨0, 1, 0, 0⟩ := by cbv
  obtain ⟨-, -, -, -, hprinted⟩ := printing_canonical ⟨0, 1, 0, 0⟩
  exact ⟨hunmarked, hparse, by cbv, hprinted _ hunmarked hparse⟩

end UInt256

end BridgeMint
