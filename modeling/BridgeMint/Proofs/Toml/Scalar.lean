import BridgeMint.Proofs.Json.Number
import BridgeMint.Proofs.Toml.Text
import BridgeMint.Toml.Value
import BridgeMint.Toml.Writer
import Mathlib.Data.List.Basic

/-!
# Values that a line holds are read back

An integer below `2 ^ 63` is written as a decimal numeral without leading zeros.  Such a word is no
name of a value, and it is no date or time either, as these need a dash or a colon; so it is read as
the integer that it spells.  A text starts with a quote and is read as a text.
-/

namespace BridgeMint

namespace Toml

/-! ## Words of digits -/

/-- Without a dash there is no date. -/
theorem afterDate?_of_no_dash {cs : List Char} (h : '-' ∉ cs) : afterDate? cs = none := by
  unfold afterDate?
  split
  case h_1 => exact absurd (by simp) h
  case h_2 => rfl

/-- Without a colon there is no time. -/
theorem afterTime?_of_no_colon {cs : List Char} (h : ':' ∉ cs) : afterTime? cs = none := by
  unfold afterTime?
  split
  case h_1 => exact absurd (by simp) h
  case h_2 => rfl

variable {digits : List Char}

theorem not_mem_of_isDigit (hdigits : ∀ c ∈ digits, c.isDigit) {c : Char} (hc : c.isDigit = false) :
    c ∉ digits := fun hmem => by
  have hdigit := hdigits c hmem
  rw [hc] at hdigit
  cases hdigit

theorem isMoment_of_isDigit (hdigits : ∀ c ∈ digits, c.isDigit) : isMoment digits = false := by
  have hdate := afterDate?_of_no_dash (not_mem_of_isDigit hdigits (by decide))
  have htime := afterTime?_of_no_colon (not_mem_of_isDigit hdigits (by decide))
  rw [isMoment, isDate, isTime, isDateTime, hdate, htime]
  rfl

/-- Digits without underscores are all of them digits of the numeral. -/
theorem digits?_of_isDigit (hdigits : ∀ c ∈ digits, c.isDigit) (hnonempty : digits ≠ []) :
    digits? Char.isDigit digits = some digits := by
  induction digits with
  | nil => exact absurd rfl hnonempty
  | cons c rest ih =>
    have hc := hdigits c List.mem_cons_self
    have hrest : ∀ d ∈ rest, d.isDigit := fun d hd => hdigits d (List.mem_cons_of_mem c hd)
    cases rest with
    | nil => simp [digits?, hc]
    | cons d rest =>
      -- An underscore would be passed over, but it is no digit.
      have hd : d ≠ '_' := by
        rintro rfl
        exact absurd (hrest '_' List.mem_cons_self) (by decide)
      rw [digits?, if_pos hc, ih hrest (List.cons_ne_nil d rest), Option.map_some]
      all_goals simp [hd]

/-- A digit is no sign. -/
theorem sign_of_isDigit (hdigits : ∀ c ∈ digits, c.isDigit) : sign digits = (false, digits) := by
  cases digits with
  | nil => rfl
  | cons c rest =>
    have hne : ∀ d : Char, d.isDigit = false → c ≠ d := fun d hd hc =>
      not_mem_of_isDigit hdigits hd (hc ▸ List.mem_cons_self)
    rw [sign]
    · simp [hne '-' (by decide)]
    · simp [hne '+' (by decide)]

/-- The value of a decimal digit is its distance from zero. -/
theorem digitValue_of_isDigit {c : Char} (hc : c.isDigit) : digitValue c = c.toNat - '0'.toNat := by
  have hle : c.toNat ≤ 57 := by
    rw [Char.isDigit, Bool.and_eq_true, decide_eq_true_eq, decide_eq_true_eq] at hc
    obtain ⟨-, hnine⟩ := hc
    exact hnine
  rw [digitValue, if_pos (by omega)]
  rfl

theorem numberOf_of_isDigit (hdigits : ∀ c ∈ digits, c.isDigit) :
    numberOf 10 digits = Nat.ofDigitChars 10 digits 0 :=
  List.foldl_ext _ _ 0 fun n c hc => by rw [digitValue_of_isDigit (hdigits c hc)]

/-! ## Integers -/

theorem isDigit_of_mem_toDigits (n : Nat) : ∀ c ∈ Nat.toDigits 10 n, c.isDigit :=
  fun _ hc => Nat.isDigit_of_mem_toDigits (by decide) (by decide) hc

/-- A numeral without leading zeros is a whole number. -/
theorem whole?_toDigits (n : Nat) : whole? (Nat.toDigits 10 n) = some (Nat.toDigits 10 n) := by
  have hdigits := isDigit_of_mem_toDigits n
  rw [whole?, digits?_of_isDigit hdigits Nat.toDigits_ne_nil]
  split
  case h_1 c rest hzero =>
    -- A numeral of several digits that starts with a zero would be the numeral of zero.
    have hcase := Option.some.inj hzero
    rw [Json.eq_zero_of_toDigits_zero hcase] at hcase
    cases hcase
  case h_2 => rfl

/-- The numeral of a number below `2 ^ 63` is read as this integer. -/
theorem integer?_toDigits {n : Nat} (h : n < 2 ^ 63) : integer? (Nat.toDigits 10 n) = some n := by
  have hdigits := isDigit_of_mem_toDigits n
  have hnumber : numberOf 10 (Nat.toDigits 10 n) = n := by
    rw [numberOf_of_isDigit hdigits]
    exact Nat.ofDigitChars_ten_toDigits
  have hmark : ∀ c : Char, c.isDigit = false → ∀ rest, Nat.toDigits 10 n ≠ '0' :: c :: rest :=
    fun c hc rest hcase => not_mem_of_isDigit hdigits hc (hcase ▸ by simp)
  -- There is no mark of another base, so all the digits are those of a decimal numeral.
  rw [integer?]
  · rw [sign_of_isDigit hdigits, whole?_toDigits, Option.bind_some, hnumber, inRange?]
    simp only [Bool.false_eq_true, if_false]
    exact if_pos (by omega)
  · exact fun rest => hmark 'x' (by decide) rest
  · exact fun rest => hmark 'o' (by decide) rest
  · exact fun rest => hmark 'b' (by decide) rest

/-- As a word it is the integer, too. -/
theorem word?_toDigits {n : Nat} (h : n < 2 ^ 63) :
    word? (Nat.toDigits 10 n) = some (.integer n) := by
  have hdigits := isDigit_of_mem_toDigits n
  have htrue : Nat.toDigits 10 n ≠ "true".toList := fun hcase =>
    not_mem_of_isDigit hdigits (c := 't') (by decide) (hcase ▸ by decide)
  have hfalse : Nat.toDigits 10 n ≠ "false".toList := fun hcase =>
    not_mem_of_isDigit hdigits (c := 'f') (by decide) (hcase ▸ by decide)
  rw [word?, if_neg htrue, if_neg hfalse, isMoment_of_isDigit hdigits, number?, integer?_toDigits h]
  rfl

theorem isWordChar_of_isDigit {c : Char} (h : c.isDigit) : isWordChar c := by
  simp [isWordChar, Char.isAlphanum, h]

/-- A numeral at the end of a line is read as a word. -/
theorem readWord_toDigits {n : Nat} (h : n < 2 ^ 63) (rest : List Char) :
    readWord (Nat.toDigits 10 n ++ '\n' :: rest) = some (.integer n, '\n' :: rest) := by
  have hword : ∀ c ∈ Nat.toDigits 10 n, isWordChar c := fun c hc =>
    isWordChar_of_isDigit (isDigit_of_mem_toDigits n c hc)
  have hend : isWordChar '\n' = false := by decide
  rw [readWord, List.takeWhile_append_of_pos hword, List.dropWhile_append_of_pos hword]
  simp [hend, word?_toDigits h]

/-! ## Every value -/

/-- What a value says. -/
def Scalar.toDatum : Scalar → Datum
  | integer n => .ofUInt64 n
  | text s => .text s

theorem writeText_head (s : List Char) :
    ∃ later, writeText s = '"' :: later ∨ writeText s = '\'' :: later := by
  rw [writeText]
  cases Quotation.choose s with
  | basic | basicLines => exact ⟨_, .inl rfl⟩
  | literal | literalLines => exact ⟨_, .inr rfl⟩

/-- A value that can be written is read back from the end of a line. -/
theorem readValue_write {value : Scalar} (h : value.isWritable) (depth : Nat) (rest : List Char) :
    readValue depth (value.write ++ '\n' :: rest) = some (value.toDatum, '\n' :: rest) := by
  cases value with
  | text s =>
    have hread := readText?_writeText s.toList ('\n' :: rest)
      (by rintro _ ⟨⟩; decide) (by rintro _ ⟨⟩; decide)
    obtain ⟨later, hhead | hhead⟩ := writeText_head s.toList
    all_goals
      rw [hhead, List.cons_append] at hread
      rw [Scalar.write, hhead, List.cons_append, readValue, hread]
      simp [Scalar.toDatum]
  | integer n =>
    -- Integers that can be written are below `2 ^ 63`.
    have hsmall : n.toNat < 2 ^ 63 := by
      have hlt : n < 0x8000000000000000 := by simpa [Scalar.isWritable] using h
      exact UInt64.lt_iff_toNat_lt.mp hlt
    have hdigits := isDigit_of_mem_toDigits n.toNat
    have hread := readWord_toDigits hsmall rest
    rw [Scalar.write, Scalar.toDatum, Datum.ofUInt64, ← hread]
    cases hfront : Nat.toDigits 10 n.toNat with
    | nil => exact absurd hfront Nat.toDigits_ne_nil
    | cons first later =>
      -- A digit opens neither a text nor a list nor a table.
      have hfirst : ∀ c : Char, c.isDigit = false → first ≠ c := fun c hc heq =>
        not_mem_of_isDigit hdigits hc (heq ▸ hfront ▸ List.mem_cons_self)
      rw [List.cons_append, readValue]
      all_goals simp [hfirst _]

end Toml

end BridgeMint
