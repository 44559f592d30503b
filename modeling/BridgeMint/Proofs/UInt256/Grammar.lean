import BridgeMint.Proofs.UInt256.Text

/-!
# The grammar of numbers as text

A text is a numeral if it is a hexadecimal mark with at most sixty-four digits after it, or if it has
no mark and consists of decimal digits for a number that fits.  Every other text is refused for one
reason, which the text alone decides.  Reading answers exactly the number that a numeral spells, and
exactly the reason for which any other text is refused.
-/

namespace BridgeMint

namespace UInt256

/-! ## Numerals and refusals -/

/-- A text that starts with `0x` or `0X`, and the characters after this mark. -/
def Marked (text digits : List Char) : Prop :=
  text = '0' :: 'x' :: digits ∨ text = '0' :: 'X' :: digits

/-- A text that starts neither with `0x` nor with `0X`. -/
def Unmarked (text : List Char) : Prop :=
  ∀ digits, ¬ Marked text digits

/-- The texts that spell a number of 256 bits, with the number. -/
inductive Numeral (text : String) : Nat → Prop
  /-- At most sixty-four hexadecimal digits after a mark, of either case, or none at all. -/
  | hexadecimal {digits : List Char} (marked : Marked text.toList digits)
      (allDigits : Hex.AllDigits digits) (short : digits.length ≤ 64) :
      Numeral text (Hex.value digits)
  /-- One or more decimal digits without a mark, leading zeros or not, for a number of 256 bits. -/
  | decimal (unmarked : Unmarked text.toList) (nonempty : text.toList ≠ [])
      (allDigits : ∀ c ∈ text.toList, c.isDigit)
      (fits : Nat.ofDigitChars 10 text.toList 0 < 2 ^ 256) :
      Numeral text (Nat.ofDigitChars 10 text.toList 0)

/-- The texts that are refused, with the reason. -/
inductive Refused (text : String) : FormatError → Prop
  /-- Some character after the mark is no hexadecimal digit.  The first such character is reported,
  at its place among the digits; a zero that makes their number even counts. -/
  | badDigit {front back : List Char} {c : Char}
      (marked : Marked text.toList (front ++ c :: back)) (allDigits : Hex.AllDigits front)
      (bad : Hex.digitValue? c = none) :
      Refused text (.hex (.badDigit (Hex.leadByte c)
        (front.length + Hex.utf8Length (front ++ c :: back) % 2)))
  /-- More than sixty-four hexadecimal digits, whatever their value. -/
  | tooLong {digits : List Char} (marked : Marked text.toList digits)
      (allDigits : Hex.AllDigits digits) (long : 64 < digits.length) : Refused text .overflow
  /-- Decimal digits at the start of the text spell a number that is too great, whatever follows. -/
  | tooGreat {digits : List Char} (unmarked : Unmarked text.toList)
      (front : digits <+: text.toList) (allDigits : ∀ c ∈ digits, c.isDigit)
      (great : 2 ^ 256 ≤ Nat.ofDigitChars 10 digits 0) : Refused text .overflow
  /-- The text is empty or has another character, and no digits in front of it are too great. -/
  | noNumeral (unmarked : Unmarked text.toList)
      (notDigits : ¬ (text.toList ≠ [] ∧ ∀ c ∈ text.toList, c.isDigit))
      (fits : ∀ digits, digits <+: text.toList → (∀ c ∈ digits, c.isDigit) →
        Nat.ofDigitChars 10 digits 0 < 2 ^ 256) : Refused text (.decimal text)

/-! ## Every text is one or the other -/

variable {text : String} {digits : List Char}

/-- The first element of a list that fails a test, with what stands around it. -/
theorem exists_first_not {α : Type} {p : α → Bool} {l : List α} (h : ¬ ∀ a ∈ l, p a) :
    ∃ front a back, l = front ++ a :: back ∧ (∀ b ∈ front, p b) ∧ p a = false := by
  induction l with
  | nil => exact absurd (by simp) h
  | cons a l ih =>
    cases ha : p a with
    | false => exact ⟨[], a, l, rfl, by simp, ha⟩
    | true =>
      have hrest : ¬ ∀ b ∈ l, p b := fun hall => h (List.forall_mem_cons.mpr ⟨ha, hall⟩)
      obtain ⟨front, b, back, rfl, hfront, hb⟩ := ih hrest
      exact ⟨a :: front, b, back, rfl, List.forall_mem_cons.mpr ⟨ha, hfront⟩, hb⟩

/-- A text is a numeral or refused. -/
theorem numeral_or_refused (text : String) : (∃ n, Numeral text n) ∨ ∃ e, Refused text e := by
  by_cases hmarked : ∃ digits, Marked text.toList digits
  · obtain ⟨digits, hmarked⟩ := hmarked
    by_cases hdigits : Hex.AllDigits digits
    · by_cases hshort : digits.length ≤ 64
      · exact .inl ⟨_, .hexadecimal hmarked hdigits hshort⟩
      · exact .inr ⟨_, .tooLong hmarked hdigits (Nat.lt_of_not_le hshort)⟩
    · obtain ⟨front, c, back, rfl, hfront, hc⟩ := exists_first_not hdigits
      have hbad : Hex.digitValue? c = none := by simpa using hc
      exact .inr ⟨_, .badDigit hmarked hfront hbad⟩
  · have hunmarked : Unmarked text.toList := not_exists.mp hmarked
    -- A number that is too great is found before a character that is no digit, so it is asked for first.
    by_cases hgreat : ∃ digits, digits <+: text.toList ∧ (∀ c ∈ digits, c.isDigit) ∧
        2 ^ 256 ≤ Nat.ofDigitChars 10 digits 0
    · obtain ⟨digits, hfront, hdigits, hgreat⟩ := hgreat
      exact .inr ⟨_, .tooGreat hunmarked hfront hdigits hgreat⟩
    · have hfits : ∀ digits, digits <+: text.toList → (∀ c ∈ digits, c.isDigit) →
          Nat.ofDigitChars 10 digits 0 < 2 ^ 256 := fun digits hfront hdigits =>
        Nat.lt_of_not_le fun hover => hgreat ⟨digits, hfront, hdigits, hover⟩
      by_cases hnumeral : text.toList ≠ [] ∧ ∀ c ∈ text.toList, c.isDigit
      · obtain ⟨hnonempty, hdigits⟩ := hnumeral
        exact .inl ⟨_, .decimal hunmarked hnonempty hdigits
          (hfits _ (List.prefix_refl _) hdigits)⟩
      · exact .inr ⟨_, .noNumeral hunmarked hnumeral hfits⟩

/-! ## What is read -/

theorem unmarked?_of_marked {text : List Char} (h : Marked text digits) :
    Hex.unmarked? text = some digits := by
  rcases h with rfl | rfl <;> rfl

/-- Nothing is found exactly if there is no mark. -/
theorem unmarked?_eq_none_iff {text : List Char} : Hex.unmarked? text = none ↔ Unmarked text := by
  constructor
  · intro hnone digits hmarked
    rw [unmarked?_of_marked hmarked] at hnone
    cases hnone
  · intro hunmarked
    fun_cases Hex.unmarked? text with
    | case1 rest => exact absurd (.inl rfl) (hunmarked rest)
    | case2 rest => exact absurd (.inr rfl) (hunmarked rest)
    | case3 => rfl

instance (text : List Char) : Decidable (Unmarked text) :=
  decidable_of_iff _ unmarked?_eq_none_iff

/-- Hexadecimal digits after a mark are read as the number that they spell, unless they are too
many. -/
theorem parse_of_marked (hmarked : Marked text.toList digits) (hdigits : Hex.AllDigits digits) :
    parse text =
      if digits.length ≤ 64 then .ok (ofNat (Hex.value digits)) else .error .overflow := by
  rw [← String.ofList_toList (s := text)]
  rcases hmarked with hlower | hupper
  · rw [hlower]
    exact parse_hexDigits (.inl rfl) hdigits
  · rw [hupper]
    exact parse_hexDigits (.inr rfl) hdigits

/-- The first bad digit is reported where it stands once the number of digits has been made even. -/
theorem decode_evenDigits_of_bad {front back : List Char} {c : Char}
    (hfront : Hex.AllDigits front) (hc : Hex.digitValue? c = none) :
    Hex.decode (evenDigits (front ++ c :: back)) =
      .error (.badDigit (Hex.leadByte c)
        (front.length + Hex.utf8Length (front ++ c :: back) % 2)) := by
  rw [evenDigits]
  split
  case isTrue hodd =>
    -- The zero in front is one more character, of one byte.
    have hlength : Hex.utf8Length ('0' :: (front ++ c :: back)) =
        1 + Hex.utf8Length (front ++ c :: back) := rfl
    have hzero : Hex.AllDigits ('0' :: front) := Hex.allDigits_cons.mpr ⟨by decide, hfront⟩
    rw [Hex.decode, if_neg (by omega), ← List.cons_append, Hex.badDigit?_append hzero hc, hodd,
      Nat.zero_add, List.length_cons]
  case isFalse heven =>
    have hzero : Hex.utf8Length (front ++ c :: back) % 2 = 0 := by omega
    rw [Hex.decode, if_neg heven, Hex.badDigit?_append hfront hc, hzero, Nat.zero_add,
      Nat.add_zero]

/-! ## Reading follows the grammar -/

/-- A numeral is read as the number that it spells, which has at most 256 bits. -/
theorem parse_of_numeral {n : Nat} (h : Numeral text n) : n < size ∧ parse text = .ok (ofNat n) := by
  cases h with
  | hexadecimal marked allDigits short =>
    have hlt := Hex.value_lt allDigits
    have hsize : 16 ^ 64 = size := by rw [size]; norm_num
    -- Sixty-four digits of four bits each make 256 bits.
    have hpow := Nat.pow_le_pow_right (n := 16) (by decide) short
    refine ⟨by omega, ?_⟩
    rw [parse_of_marked marked allDigits, if_pos short]
  | decimal unmarked nonempty allDigits fits =>
    refine ⟨fits, ?_⟩
    rw [parse_of_unmarked (unmarked?_eq_none_iff.mpr unmarked) nonempty, appendDigits_eq allDigits]
    exact if_pos fits

/-- A text that is refused has its reason as the answer. -/
theorem parse_of_refused {e : FormatError} (h : Refused text e) : parse text = .error e := by
  cases h with
  | badDigit marked allDigits bad =>
    rw [parse, unmarked?_of_marked marked]
    simp only [decode_evenDigits_of_bad allDigits bad]
  | tooLong marked allDigits long =>
    rw [parse_of_marked marked allDigits, if_neg (Nat.not_le_of_lt long)]
  | @tooGreat digits unmarked front allDigits great =>
    obtain ⟨rest, hrest⟩ := front
    have hnonempty : text.toList ≠ [] := by
      -- No digits at all spell zero, which is not too great.
      rintro hempty
      rw [hempty, List.append_eq_nil_iff] at hrest
      obtain ⟨hnone, -⟩ := hrest
      rw [hnone] at great
      exact absurd great (by decide)
    rw [parse_of_unmarked (unmarked?_eq_none_iff.mpr unmarked) hnonempty, ← hrest,
      appendDigits_append allDigits]
    exact if_neg (Nat.not_lt_of_le great)
  | noNumeral unmarked notDigits fits =>
    by_cases hempty : text.toList = []
    · have htext : text = "" := by simpa using hempty
      subst htext
      rfl
    · -- The digits in front of the first other character fit, so it is the one that is met.
      have hother : ¬ ∀ c ∈ text.toList, c.isDigit := fun hall => notDigits ⟨hempty, hall⟩
      obtain ⟨front, c, back, htext, hfront, hc⟩ := exists_first_not hother
      have hfits : Nat.ofDigitChars 10 front 0 < size := fits front ⟨c :: back, htext.symm⟩ hfront
      rw [parse_of_unmarked (unmarked?_eq_none_iff.mpr unmarked) hempty, htext,
        appendDigits_append hfront, toNat_zero, if_pos hfits, appendDigits, decimalDigit?_eq, hc]
      rfl

/-- What is read is a numeral: a text that is refused would not be read. -/
theorem numeral_of_parse {v : UInt256} (h : parse text = .ok v) : Numeral text v.toNat := by
  rcases numeral_or_refused text with ⟨n, hnumeral⟩ | ⟨e, hrefused⟩
  · obtain ⟨hfits, hread⟩ := parse_of_numeral hnumeral
    obtain rfl : ofNat n = v := Except.ok.inj (hread.symm.trans h)
    rwa [toNat_ofNat_of_lt hfits]
  · rw [parse_of_refused hrefused] at h
    cases h

/-- What is answered is the reason: a numeral would be read, and two reasons cannot both be answered. -/
theorem refused_of_parse {e : FormatError} (h : parse text = .error e) : Refused text e := by
  rcases numeral_or_refused text with ⟨n, hnumeral⟩ | ⟨reason, hrefused⟩
  · obtain ⟨-, hread⟩ := parse_of_numeral hnumeral
    rw [hread] at h
    cases h
  · obtain rfl : reason = e := Except.error.inj ((parse_of_refused hrefused).symm.trans h)
    exact hrefused

/-- Reading accepts exactly the numerals, each as the number that it spells, and refuses every other
text for its own reason. -/
theorem parse_grammar (text : String) :
    (∀ v, parse text = .ok v ↔ Numeral text v.toNat) ∧
    ∀ e, parse text = .error e ↔ Refused text e := by
  refine ⟨fun v => ⟨numeral_of_parse, fun hnumeral => ?_⟩,
    fun e => ⟨refused_of_parse, parse_of_refused⟩⟩
  obtain ⟨-, hread⟩ := parse_of_numeral hnumeral
  rw [hread, ofNat_toNat]

/-- Digits that are too great decide before a character that is no digit is met. -/
example : parse
    "115792089237316195423570985008687907853269984665640564039457584007913129639936x" =
      .error .overflow := by cbv

end UInt256

end BridgeMint
