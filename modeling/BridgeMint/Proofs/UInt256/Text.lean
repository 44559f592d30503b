import BridgeMint.Proofs.Bytes.Hex
import BridgeMint.Proofs.UInt256.Division
import BridgeMint.UInt256.Text

/-!
# Numbers as text

A number is printed as the decimal numeral of the natural number that it stands for.  A decimal
numeral is read as the number that it spells, leading zeros or not, as long as it fits, and so is a
hexadecimal numeral after its mark.
-/

namespace BridgeMint

namespace UInt256

theorem ofNat_toNat (a : UInt256) : ofNat a.toNat = a :=
  toNat_inj.mp (toNat_ofNat_of_lt a.toNat_lt_size)

/-! ## Printing -/

theorem isZero_iff {a : UInt256} : a.isZero = true ↔ a.toNat = 0 := by
  rw [← toNat_zero, toNat_inj]
  obtain ⟨l0, l1, l2, l3⟩ := a
  have hzero : (0 : UInt256) = ⟨0, 0, 0, 0⟩ := rfl
  simp [isZero, limbs, hzero]

/-- A number that is not zero has a tenth, which is smaller, and a last digit. -/
theorem exists_divRem?_ten {a : UInt256} (hnonzero : ¬ a.isZero) :
    ∃ quotient digit, a.divRem? 10 = some (quotient, digit) ∧ quotient.toNat = a.toNat / 10 ∧
      digit.toNat = a.toNat % 10 ∧ quotient.toNat < a.toNat := by
  cases hdivided : a.divRem? 10 with
  | none => exact absurd (divRem?_eq_none_iff.mp hdivided) (by decide)
  | some answer =>
    obtain ⟨hquotient, hdigit⟩ := divRem?_exact hdivided
    have hten : (10 : UInt64).toNat = 10 := rfl
    rw [hten] at hquotient hdigit
    -- A tenth of a positive number is smaller.
    have hpositive : 0 < a.toNat := Nat.pos_of_ne_zero fun hzero => hnonzero (isZero_iff.mpr hzero)
    exact ⟨answer.1, answer.2, rfl, hquotient, hdigit, by omega⟩

/-- Dividing by ten finds the digits of the number, lowest first. -/
theorem reverse_decimalDigits {fuel : Nat} {a : UInt256} (hpositive : 0 < a.toNat)
    (h : a.toNat < 10 ^ fuel) : (decimalDigits fuel a).reverse = Nat.toDigits 10 a.toNat := by
  induction fuel generalizing a with
  | zero => omega
  | succ fuel ih =>
    have hnonzero : ¬ a.isZero = true := fun hzero => by
      rw [isZero_iff] at hzero
      omega
    obtain ⟨quotient, digit, hdivided, hquotient, hdigit, -⟩ := exists_divRem?_ten hnonzero
    rw [decimalDigits, if_neg hnonzero, hdivided]
    simp only [List.reverse_cons, hdigit]
    by_cases hsmall : a.toNat < 10
    · -- The quotient is zero, so there are no further digits.
      have hend : decimalDigits fuel quotient = [] := by
        have hzero : quotient.isZero = true := isZero_iff.mpr (by omega)
        cases fuel with
        | zero => rfl
        | succ fuel => rw [decimalDigits, if_pos hzero]
      rw [hend, Nat.toDigits_of_lt_base hsmall, Nat.mod_eq_of_lt hsmall]
      rfl
    · rw [pow_succ] at h
      rw [ih (a := quotient) (by omega) (by omega), hquotient,
        Nat.toDigits_of_base_le (by decide) (Nat.le_of_not_lt hsmall)]

/-- A number is printed as the digits of the natural number that it stands for. -/
theorem toList_decimal (a : UInt256) : a.decimal.toList = Nat.toDigits 10 a.toNat := by
  have hfits : a.toNat < 10 ^ 78 := Nat.lt_trans a.toNat_lt_size (by decide)
  rw [decimal]
  split
  case isTrue hzero =>
    rw [isZero_iff.mp hzero]
    rfl
  case isFalse hnonzero =>
    have hpositive : 0 < a.toNat := Nat.pos_of_ne_zero fun hzero => hnonzero (isZero_iff.mpr hzero)
    rw [String.toList_ofList, reverse_decimalDigits hpositive hfits]

/-! ## Reading decimal text -/

variable {text : String} {digits : List Char}

/-- The decimal digits are the characters that pass for digits. -/
theorem decimalDigit?_eq (c : Char) :
    decimalDigit? c = if c.isDigit then some (UInt64.ofNat (c.toNat - 48)) else none := by
  have hrange : '0' ≤ c ∧ c ≤ '9' ↔ c.isDigit := by
    rw [Char.isDigit_iff_toNat, Char.le_def, Char.le_def, UInt32.le_iff_toNat_le,
      UInt32.le_iff_toNat_le]
    rfl
  simp only [decimalDigit?, hrange]

/-- A digit is read as its distance from the digit zero. -/
theorem decimalDigit?_of_isDigit {c : Char} (h : c.isDigit) :
    ∃ digit, decimalDigit? c = some digit ∧ digit.toNat = c.toNat - '0'.toNat := by
  obtain ⟨-, hhigh⟩ : 48 ≤ c.toNat ∧ c.toNat ≤ 57 := Char.isDigit_iff_toNat.mp h
  refine ⟨UInt64.ofNat (c.toNat - 48), by rw [decimalDigit?_eq, if_pos h], ?_⟩
  apply UInt64.toNat_ofNat_of_lt
  simp only [UInt64.size]
  omega

/-- Digits after a number only make it greater. -/
theorem le_ofDigitChars (digits : List Char) (n : Nat) : n ≤ Nat.ofDigitChars 10 digits n := by
  induction digits generalizing n with
  | nil => exact Nat.le_refl n
  | cons c rest ih =>
    have hrest := ih (10 * n + (c.toNat - '0'.toNat))
    rw [Nat.ofDigitChars_cons]
    omega

/-- Decimal digits are appended exactly, as long as the number fits; reading then goes on after
them. -/
theorem appendDigits_append {soFar : UInt256} {rest : List Char}
    (hdigits : ∀ c ∈ digits, c.isDigit) :
    appendDigits text soFar (digits ++ rest) =
      if Nat.ofDigitChars 10 digits soFar.toNat < size then
        appendDigits text (ofNat (Nat.ofDigitChars 10 digits soFar.toNat)) rest
      else .error .overflow := by
  induction digits generalizing soFar with
  | nil =>
    rw [List.nil_append, Nat.ofDigitChars_nil, if_pos soFar.toNat_lt_size, ofNat_toNat]
  | cons c digits ih =>
    obtain ⟨digit, hdigit, hvalue⟩ := decimalDigit?_of_isDigit (hdigits c (by simp))
    have hten : (10 : UInt256).toNat = 10 := rfl
    have hgrows := le_ofDigitChars digits (10 * soFar.toNat + (c.toNat - '0'.toNat))
    rw [List.cons_append, appendDigits, hdigit, Nat.ofDigitChars_cons]
    simp only
    split
    case h_1 hover =>
      -- The number already read does not fit with one more place.
      rw [checkedMul_eq_none_iff, hten] at hover
      rw [if_neg (by omega)]
    case h_2 shifted hshifted =>
      rw [checkedMul_eq_some_iff, hten] at hshifted
      split
      case h_1 hover =>
        -- With the place there is room, but not for the digit in it.
        rw [checkedAdd_eq_none_iff, toNat_ofUInt64] at hover
        rw [if_neg (by omega)]
      case h_2 next hnext =>
        rw [checkedAdd_eq_some_iff, toNat_ofUInt64] at hnext
        have hread : next.toNat = 10 * soFar.toNat + (c.toNat - '0'.toNat) := by omega
        rw [ih (fun d hd => hdigits d (by simp [hd])), hread]

/-- Decimal digits with nothing after them are read as the number that they spell. -/
theorem appendDigits_eq {soFar : UInt256} (hdigits : ∀ c ∈ digits, c.isDigit) :
    appendDigits text soFar digits =
      if Nat.ofDigitChars 10 digits soFar.toNat < size then
        .ok (ofNat (Nat.ofDigitChars 10 digits soFar.toNat))
      else .error .overflow := by
  have hall : appendDigits text soFar (digits ++ []) = _ := appendDigits_append hdigits
  rwa [List.append_nil] at hall

/-- Decimal text has no hexadecimal mark. -/
theorem unmarked?_of_isDigit (hdigits : ∀ c ∈ digits, c.isDigit) : Hex.unmarked? digits = none := by
  fun_cases Hex.unmarked? digits with
  | case1 rest => exact absurd (hdigits 'x' (by simp)) (by decide)
  | case2 rest => exact absurd (hdigits 'X' (by simp)) (by decide)
  | case3 => rfl

/-- Text without a hexadecimal mark that is not empty is read digit by digit. -/
theorem parse_of_unmarked (hunmarked : Hex.unmarked? text.toList = none)
    (hnonempty : text.toList ≠ []) : parse text = appendDigits text 0 text.toList := by
  have htext : text ≠ "" := fun h => hnonempty (by rw [h]; rfl)
  rw [parse, hunmarked]
  exact if_neg htext

/-- A decimal numeral is read as the number that it spells, if that fits. -/
theorem parse_decimalDigits (hnonempty : digits ≠ []) (hdigits : ∀ c ∈ digits, c.isDigit) :
    parse (String.ofList digits) =
      if Nat.ofDigitChars 10 digits 0 < size then .ok (ofNat (Nat.ofDigitChars 10 digits 0))
      else .error .overflow := by
  rw [← String.toList_ofList (l := digits)] at hnonempty hdigits
  rw [parse_of_unmarked (unmarked?_of_isDigit hdigits) hnonempty, appendDigits_eq hdigits,
    String.toList_ofList, toNat_zero]

/-- The printed text is a decimal numeral of the number. -/
theorem exists_decimal_digits (a : UInt256) :
    ∃ digits, a.decimal = String.ofList digits ∧ digits ≠ [] ∧ (∀ c ∈ digits, c.isDigit) ∧
      Nat.ofDigitChars 10 digits 0 = a.toNat := by
  exact ⟨Nat.toDigits 10 a.toNat, by rw [← toList_decimal, String.ofList_toList],
    Nat.toDigits_ne_nil, fun c hc => Nat.isDigit_of_mem_toDigits (by decide) (by decide) hc,
    Nat.ofDigitChars_toDigits (by decide) (by decide)⟩

/-! ## Reading hexadecimal text -/

/-- Zeros in front make no difference to the value. -/
theorem bigEndianValue_padLeft (width : Nat) (bytes : Bytes) :
    Bytes.bigEndianValue (Bytes.padLeft width bytes) = Bytes.bigEndianValue bytes := by
  have hzeros : ∀ n, Bytes.bigEndianValue (List.replicate n 0) = 0 := by
    intro n
    induction n with
    | zero => rfl
    | succ n ih => exact ih
  rw [Bytes.padLeft, Bytes.bigEndianValue_append, hzeros, Nat.mul_zero, Nat.zero_add]

/-- At most thirty-two bytes are read as their value. -/
theorem ofBytes_of_length_le {bytes : Bytes} (h : bytes.length ≤ 32) :
    ofBytes bytes = .ok (ofNat (Bytes.bigEndianValue bytes)) := by
  have hvalue := toNat_ofWord ⟨Bytes.padLeft 32 bytes, Bytes.length_padLeft h⟩
  rw [bigEndianValue_padLeft] at hvalue
  have hlt := toNat_lt_size (ofWord ⟨Bytes.padLeft 32 bytes, Bytes.length_padLeft h⟩)
  rw [ofBytes, dif_pos h, Except.ok.injEq, ← toNat_inj, hvalue, toNat_ofNat_of_lt (hvalue ▸ hlt)]

/-- The leading zero that makes the number of digits even changes nothing else. -/
theorem evenDigits_spec (hdigits : Hex.AllDigits digits) :
    Hex.AllDigits (evenDigits digits) ∧ (evenDigits digits).length = 2 * ((digits.length + 1) / 2) ∧
      Hex.value (evenDigits digits) = Hex.value digits := by
  rw [evenDigits, Hex.utf8Length_of_allDigits hdigits]
  split
  case isTrue hodd =>
    refine ⟨Hex.allDigits_cons.mpr ⟨by decide, hdigits⟩, ?_, rfl⟩
    rw [List.length_cons]
    omega
  case isFalse heven => exact ⟨hdigits, by omega, rfl⟩

/-- A hexadecimal numeral is read as the number that it spells, if it has at most sixty-four
digits. -/
theorem parse_hexDigits {mark : Char} (hmark : mark = 'x' ∨ mark = 'X')
    (hdigits : Hex.AllDigits digits) :
    parse (String.ofList ('0' :: mark :: digits)) =
      if digits.length ≤ 64 then .ok (ofNat (Hex.value digits)) else .error .overflow := by
  have hunmarked : Hex.unmarked? ('0' :: mark :: digits) = some digits := by
    rcases hmark with rfl | rfl <;> rfl
  obtain ⟨heven, hcount, hvalue⟩ := evenDigits_spec hdigits
  -- Two digits make a byte, so the number of bytes is known from that of the digits.
  have hvalues := (Hex.length_filterMap_digitValue? heven).trans hcount
  have hbytes := Hex.length_joinDigits ((evenDigits digits).filterMap Hex.digitValue?)
  rw [hvalues, Nat.mul_div_cancel_left _ (by decide)] at hbytes
  rw [parse, String.toList_ofList, hunmarked]
  simp only [Hex.decode_of_allDigits heven (by omega)]
  split
  case isTrue hshort =>
    rw [ofBytes_of_length_le (by omega), Hex.bigEndianValue_joinDigits
      (fun v hv => Hex.lt_of_mem_filterMap hv) (by omega), ← hvalue]
    rfl
  case isFalse hlong =>
    -- More than thirty-two bytes are refused, whatever they are.
    rw [ofBytes, dif_neg (by omega)]

end UInt256

end BridgeMint
