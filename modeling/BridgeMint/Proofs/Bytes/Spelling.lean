import BridgeMint.Proofs.UInt256.Grammar

/-!
# How addresses and words are spelled

An address is a hexadecimal mark with forty digits after it, a word is sixty-four digits with or without a
mark.  Every other text is refused for one reason, which is found in this order: the mark that an address
lacks, an odd length, the first character that is no digit, and a wrong number of bytes.  What is printed
is such a text, and two of them stand for the same bytes exactly if they differ in the mark and the case of
letters only.
-/

namespace BridgeMint

open UInt256 (Marked Unmarked)

/-- A result is settled by conditions that lead to it and leave nothing out. -/
theorem answers_iff {α ε : Type} {result : Except ε α} {P : α → Prop} {Q : ε → Prop}
    (hok : ∀ a, P a → result = .ok a) (herror : ∀ e, Q e → result = .error e)
    (hcases : (∃ a, P a) ∨ ∃ e, Q e) :
    (∀ a, result = .ok a ↔ P a) ∧ ∀ e, result = .error e ↔ Q e := by
  rcases hcases with ⟨a, ha⟩ | ⟨e, he⟩
  · have hresult := hok a ha
    refine ⟨fun b => ⟨fun hb => ?_, hok b⟩, fun e => ⟨fun he => ?_, herror e⟩⟩
    · obtain rfl : a = b := Except.ok.inj (hresult.symm.trans hb)
      exact ha
    · -- A result of one kind is none of the other.
      rw [hresult] at he
      cases he
  · have hresult := herror e he
    refine ⟨fun b => ⟨fun hb => ?_, hok b⟩, fun e' => ⟨fun he' => ?_, herror e'⟩⟩
    · rw [hresult] at hb
      cases hb
    · obtain rfl : e = e' := Except.error.inj (hresult.symm.trans he')
      exact he

/-! ## Digits -/

namespace Hex

variable {digits : List Char} {bytes bytes' : Bytes}

/-- The texts without a mark that are refused, with the reason. -/
inductive Refused (digits : List Char) : HexError → Prop
  | oddLength (odd : utf8Length digits % 2 = 1) : Refused digits .oddLength
  /-- The first character that is no digit is reported, at its place in the text. -/
  | badDigit {front back : List Char} {c : Char} (even : utf8Length digits % 2 = 0)
      (split : digits = front ++ c :: back) (allDigits : AllDigits front)
      (bad : digitValue? c = none) : Refused digits (.badDigit (leadByte c) front.length)

/-- A text that is refused is refused with its reason. -/
theorem decode_of_refused {e : HexError} (h : Refused digits e) : decode digits = .error e := by
  cases h with
  | oddLength odd => rw [decode, if_pos odd]
  | badDigit even split allDigits bad =>
    rw [decode, if_neg (by omega), split, badDigit?_append allDigits bad, Nat.zero_add]

/-- Every text spells bytes or is refused. -/
theorem spells_or_refused (digits : List Char) :
    (∃ bytes, Spells digits bytes) ∨ ∃ e, Refused digits e := by
  rcases Nat.mod_two_eq_zero_or_one (utf8Length digits) with heven | hodd
  · by_cases hdigits : AllDigits digits
    · rw [utf8Length_of_allDigits hdigits] at heven
      exact .inl (exists_spells hdigits heven)
    · -- The first character that is no digit splits the text.
      obtain ⟨front, c, back, hsplit, hfront, hc⟩ := UInt256.exists_first_not hdigits
      have hbad : digitValue? c = none := by simpa using hc
      exact .inr ⟨_, .badDigit heven hsplit hfront hbad⟩
  · exact .inr ⟨_, .oddLength hodd⟩

/-! ## Case -/

/-- The lower-case form of a digit is the one that is written for its value. -/
theorem toLower_eq_lowerDigit {c : Char} {v : Nat} (h : digitValue? c = some v) :
    c.toLower = lowerDigit v := by
  -- Every digit is one of the first 128 characters, which are few enough to be looked at one by one.
  have hall : ∀ n < 128, (digitValue? (.ofNat n)).all
      (fun v => (Char.ofNat n).toLower == lowerDigit v) = true := by decide
  obtain ⟨-, hascii⟩ := digitValue?_bounds h
  have hdigit := hall c.toNat hascii
  rw [Char.ofNat_toNat, h] at hdigit
  exact eq_of_beq hdigit

/-- In lower case, digits that spell bytes are the digits that are written for them. -/
theorem Spells.map_toLower (h : Spells digits bytes) :
    digits.map Char.toLower = encodeWith lowerDigit bytes := by
  induction h with
  | nil => rfl
  | cons high_value low_value _ ih =>
    rw [List.map_cons, List.map_cons, ih, toLower_eq_lowerDigit high_value,
      toLower_eq_lowerDigit low_value]
    rfl

/-- Digits spell the same bytes exactly if they agree up to the case of letters. -/
theorem Spells.inj_iff {digits' : List Char} (h : Spells digits bytes) (h' : Spells digits' bytes') :
    bytes = bytes' ↔ digits.map Char.toLower = digits'.map Char.toLower := by
  rw [h.map_toLower, h'.map_toLower]
  constructor
  · rintro rfl
    rfl
  · -- What is written in lower case is itself read back, so it is written for one list of bytes only.
    intro hsame
    have hread := (spells_lower bytes).decode_eq
    rw [hsame, (spells_lower bytes').decode_eq] at hread
    exact (Except.ok.inj hread).symm

end Hex

/-! ## Byte strings of fixed length -/

namespace FixedBytes

variable {n : Nat} {digits : List Char}

theorem toList_inj {a b : FixedBytes n} : a.toList = b.toList ↔ a = b :=
  ⟨ext, congrArg toList⟩

/-- Reads digits as a byte string of `n` bytes; another number of bytes is an error that tells it. -/
def ofDigits (wrongLength : Nat → FormatError) (digits : List Char) :
    Except FormatError (FixedBytes n) :=
  match Hex.decode digits with
  | .error cause => .error (.hex cause)
  | .ok bytes =>
    match ofList? bytes with
    | some a => .ok a
    | none => .error (wrongLength bytes.length)

/-- The digits that are refused as a byte string of `n` bytes, with the reason. -/
inductive Refused (n : Nat) (wrongLength : Nat → FormatError) (digits : List Char) :
    FormatError → Prop
  | notHex {cause : HexError} (refused : Hex.Refused digits cause) :
      Refused n wrongLength digits (.hex cause)
  | length {bytes : Bytes} (spells : Hex.Spells digits bytes) (other : bytes.length ≠ n) :
      Refused n wrongLength digits (wrongLength bytes.length)

theorem spells_or_refused (n : Nat) (wrongLength : Nat → FormatError) (digits : List Char) :
    (∃ a : FixedBytes n, Hex.Spells digits a.toList) ∨ ∃ e, Refused n wrongLength digits e := by
  rcases Hex.spells_or_refused digits with ⟨bytes, hbytes⟩ | ⟨cause, hcause⟩
  · by_cases hlength : bytes.length = n
    · exact .inl ⟨⟨bytes, hlength⟩, hbytes⟩
    · exact .inr ⟨_, .length hbytes hlength⟩
  · exact .inr ⟨_, .notHex hcause⟩

/-- Byte strings of `n` bytes are spelled by exactly `2 * n` digits. -/
theorem exists_spells_iff : (∃ a : FixedBytes n, Hex.Spells digits a.toList) ↔
    digits.length = 2 * n ∧ Hex.AllDigits digits := by
  constructor
  · rintro ⟨a, hspells⟩
    exact ⟨a.length_toList ▸ hspells.length_eq, hspells.allDigits⟩
  · rintro ⟨hlength, hdigits⟩
    obtain ⟨bytes, hspells⟩ := Hex.exists_spells hdigits (by omega)
    have hbytes : bytes.length = n := by
      have hpairs := hspells.length_eq
      omega
    exact ⟨⟨bytes, hbytes⟩, hspells⟩

/-- Digits are read as a byte string of `n` bytes, or refused, as the text of the digits has it. -/
theorem ofDigits_iff (n : Nat) (wrongLength : Nat → FormatError) (digits : List Char) :
    (∀ a : FixedBytes n, ofDigits wrongLength digits = .ok a ↔ Hex.Spells digits a.toList) ∧
      ∀ e, (ofDigits wrongLength digits : Except FormatError (FixedBytes n)) = .error e ↔
        Refused n wrongLength digits e := by
  -- The two cases exclude each other and leave nothing out, so each of them is met exactly by its texts.
  refine answers_iff (fun a ha => ?_) (fun e he => ?_) (spells_or_refused n wrongLength digits)
  · rw [ofDigits, ha.decode_eq]
    simp only [ofList?_toList]
  · cases he with
    | notHex refused => rw [ofDigits, Hex.decode_of_refused refused]
    | length spells other =>
      rw [ofDigits, spells.decode_eq]
      simp only [ofList?, dif_neg other]

end FixedBytes

/-! ## Texts with and without a mark -/

namespace Hex

/-- The digits of a text that may carry a mark: what follows the mark, or the whole text without one. -/
def Body (text digits : List Char) : Prop :=
  Marked text digits ∨ Unmarked text ∧ digits = text

/-- A text without its mark, if it has one, and in lower case. -/
def folded (text : String) : List Char :=
  ((unmarked? text.toList).getD text.toList).map Char.toLower

/-- Dropping the mark, if there is one, leaves the digits. -/
theorem getD_unmarked?_of_body {text digits : List Char} (h : Body text digits) :
    (unmarked? text).getD text = digits := by
  rcases h with hmarked | ⟨hunmarked, rfl⟩
  · rw [UInt256.unmarked?_of_marked hmarked, Option.getD_some]
  · rw [UInt256.unmarked?_eq_none_iff.mpr hunmarked, Option.getD_none]

theorem exists_body (text : List Char) : ∃ digits, Body text digits := by
  by_cases hmarked : ∃ digits, Marked text digits
  · obtain ⟨digits, hmarked⟩ := hmarked
    exact ⟨digits, .inl hmarked⟩
  · exact ⟨text, .inr ⟨not_exists.mp hmarked, rfl⟩⟩

/-- Texts stand for the same bytes exactly if they agree up to the mark and the case of letters. -/
theorem folded_eq_iff {text text' : String} {digits digits' : List Char} {bytes bytes' : Bytes}
    (hbody : Body text.toList digits) (hbody' : Body text'.toList digits')
    (h : Spells digits bytes) (h' : Spells digits' bytes') :
    bytes = bytes' ↔ folded text = folded text' := by
  rw [h.inj_iff h', folded, folded, getD_unmarked?_of_body hbody, getD_unmarked?_of_body hbody']

end Hex

/-! ## Addresses -/

namespace Address

/-- The texts that spell an address: a mark and forty digits, of either case. -/
def Spelled (text : String) (address : Address) : Prop :=
  ∃ digits, Marked text.toList digits ∧ Hex.Spells digits address.toList

/-- The texts that are refused as addresses, with the reason. -/
inductive Refused (text : String) : FormatError → Prop
  | noMark (unmarked : Unmarked text.toList) : Refused text (.addressMark text)
  | digits {digits : List Char} {e : FormatError} (marked : Marked text.toList digits)
      (refused : FixedBytes.Refused 20 .addressLength digits e) : Refused text e

/-- A marked text is read as its digits are. -/
theorem parse_of_marked {text : String} {digits : List Char} (h : Marked text.toList digits) :
    parse text = FixedBytes.ofDigits .addressLength digits := by
  simp only [parse, UInt256.unmarked?_of_marked h, FixedBytes.ofDigits]
  -- The bytes are read alike; they are told apart from the wrong number of them in two steps or in one.
  cases Hex.decode digits with
  | error cause => rfl
  | ok bytes =>
    simp only [ofBytes]
    cases FixedBytes.ofList? bytes <;> rfl

/-- A text is read as an address exactly if it spells one, and refused for the reason that it gives. -/
theorem parse_iff (text : String) :
    (∀ address, parse text = .ok address ↔ Spelled text address) ∧
      ∀ e, parse text = .error e ↔ Refused text e := by
  refine answers_iff (fun address haddress => ?_) (fun e he => ?_) ?_
  · obtain ⟨digits, hmarked, hspells⟩ := haddress
    obtain ⟨hok, -⟩ := FixedBytes.ofDigits_iff 20 .addressLength digits
    rw [parse_of_marked hmarked]
    exact (hok address).mpr hspells
  · cases he with
    | noMark unmarked => rw [parse, UInt256.unmarked?_eq_none_iff.mpr unmarked]
    | @digits digits _ marked refused =>
      obtain ⟨-, herror⟩ := FixedBytes.ofDigits_iff 20 .addressLength digits
      rw [parse_of_marked marked]
      exact (herror e).mpr refused
  · -- A text without a mark is refused for that, whatever else is wrong with it.
    by_cases hmarked : ∃ digits, Marked text.toList digits
    · obtain ⟨digits, hmarked⟩ := hmarked
      rcases FixedBytes.spells_or_refused 20 .addressLength digits with ⟨address, hspells⟩ | ⟨e, he⟩
      · exact .inl ⟨address, digits, hmarked, hspells⟩
      · exact .inr ⟨e, .digits hmarked he⟩
    · exact .inr ⟨_, .noMark (not_exists.mp hmarked)⟩

/-- The texts that spell some address are those with forty digits after a mark. -/
theorem exists_spelled_iff {text : String} : (∃ address, Spelled text address) ↔
    ∃ digits, Marked text.toList digits ∧ digits.length = 40 ∧ Hex.AllDigits digits := by
  simp only [Spelled, ← FixedBytes.exists_spells_iff (n := 20)]
  exact ⟨fun ⟨a, digits, hmarked, h⟩ => ⟨digits, hmarked, a, h⟩,
    fun ⟨digits, hmarked, a, h⟩ => ⟨a, digits, hmarked, h⟩⟩

theorem parse_upperText (address : Address) : parse address.upperText = .ok address := by
  obtain ⟨hok, -⟩ := parse_iff address.upperText
  refine (hok address).mpr ⟨_, .inl ?_, Hex.spells_upper address.toList⟩
  simp [FixedBytes.upperText, Hex.encodeUpper]

end Address

/-! ## Words -/

namespace Word

/-- The texts that spell a word: sixty-four digits, of either case, with or without a mark. -/
def Spelled (text : String) (word : Word) : Prop :=
  ∃ digits, Hex.Body text.toList digits ∧ Hex.Spells digits word.toList

/-- The texts that are refused as words, with the reason. -/
def Refused (text : String) (e : FormatError) : Prop :=
  ∃ digits, Hex.Body text.toList digits ∧ FixedBytes.Refused 32 .wordLength digits e

/-- A text is read as its digits are, marked or not. -/
theorem parse_of_body {text : String} {digits : List Char} (h : Hex.Body text.toList digits) :
    parse text = FixedBytes.ofDigits .wordLength digits := by
  rw [parse, Hex.getD_unmarked?_of_body h, FixedBytes.ofDigits]
  cases Hex.decode digits with
  | error cause => rfl
  | ok bytes =>
    simp only [ofBytes]
    cases FixedBytes.ofList? bytes <;> rfl

/-- A text is read as a word exactly if it spells one, and refused for the reason that its digits give. -/
theorem parse_iff (text : String) :
    (∀ word, parse text = .ok word ↔ Spelled text word) ∧
      ∀ e, parse text = .error e ↔ Refused text e := by
  refine answers_iff (fun word hword => ?_) (fun e he => ?_) ?_
  · obtain ⟨digits, hbody, hspells⟩ := hword
    obtain ⟨hok, -⟩ := FixedBytes.ofDigits_iff 32 .wordLength digits
    rw [parse_of_body hbody]
    exact (hok word).mpr hspells
  · obtain ⟨digits, hbody, hrefused⟩ := he
    obtain ⟨-, herror⟩ := FixedBytes.ofDigits_iff 32 .wordLength digits
    rw [parse_of_body hbody]
    exact (herror e).mpr hrefused
  · obtain ⟨digits, hbody⟩ := Hex.exists_body text.toList
    rcases FixedBytes.spells_or_refused 32 .wordLength digits with ⟨word, hspells⟩ | ⟨e, he⟩
    · exact .inl ⟨word, digits, hbody, hspells⟩
    · exact .inr ⟨e, digits, hbody, he⟩

/-- The texts that spell some word are those with sixty-four digits, whether marked or not. -/
theorem exists_spelled_iff {text : String} : (∃ word, Spelled text word) ↔
    ∃ digits, Hex.Body text.toList digits ∧ digits.length = 64 ∧ Hex.AllDigits digits := by
  simp only [Spelled, ← FixedBytes.exists_spells_iff (n := 32)]
  exact ⟨fun ⟨a, digits, hbody, h⟩ => ⟨digits, hbody, a, h⟩,
    fun ⟨digits, hbody, a, h⟩ => ⟨a, digits, hbody, h⟩⟩

end Word

/-- An address is read from a mark with forty digits after it and from no other text, a word from
sixty-four digits with or without a mark.  The bytes are those that the digits spell, and what is refused
is refused for the reason that its text gives.  Every printed form is read back, and two texts that are
read stand for the same value exactly if they agree up to the mark and the case of letters. -/
theorem address_and_word_spelling :
    (∀ text : String,
      (∀ address, Address.parse text = .ok address ↔ Address.Spelled text address) ∧
      (∀ e, Address.parse text = .error e ↔ Address.Refused text e) ∧
      ((∃ address, Address.parse text = .ok address) ↔
        ∃ digits, Marked text.toList digits ∧ digits.length = 40 ∧ Hex.AllDigits digits)) ∧
    (∀ text : String,
      (∀ word, Word.parse text = .ok word ↔ Word.Spelled text word) ∧
      (∀ e, Word.parse text = .error e ↔ Word.Refused text e) ∧
      ((∃ word, Word.parse text = .ok word) ↔
        ∃ digits, Hex.Body text.toList digits ∧ digits.length = 64 ∧ Hex.AllDigits digits)) ∧
    (∀ address : Address, Address.parse address.text = .ok address ∧
      Address.parse address.upperText = .ok address) ∧
    (∀ word : Word, Word.parse word.text = .ok word) ∧
    (∀ (text text' : String) (a a' : Address),
      Address.parse text = .ok a → Address.parse text' = .ok a' →
        (a = a' ↔ Hex.folded text = Hex.folded text')) ∧
    ∀ (text text' : String) (w w' : Word), Word.parse text = .ok w → Word.parse text' = .ok w' →
      (w = w' ↔ Hex.folded text = Hex.folded text') := by
  refine ⟨fun text => ?address, fun text => ?word, fun a => ⟨a.parse_text, a.parse_upperText⟩,
    Word.parse_text, ?addressCase, ?wordCase⟩
  case address =>
    obtain ⟨hok, herror⟩ := Address.parse_iff text
    refine ⟨hok, herror, ?_⟩
    rw [exists_congr hok, Address.exists_spelled_iff]
  case word =>
    obtain ⟨hok, herror⟩ := Word.parse_iff text
    refine ⟨hok, herror, ?_⟩
    rw [exists_congr hok, Word.exists_spelled_iff]
  case addressCase =>
    intro text text' a a' h h'
    obtain ⟨hok, -⟩ := Address.parse_iff text
    obtain ⟨hok', -⟩ := Address.parse_iff text'
    obtain ⟨digits, hmarked, hspells⟩ := (hok a).mp h
    obtain ⟨digits', hmarked', hspells'⟩ := (hok' a').mp h'
    rw [← FixedBytes.toList_inj]
    -- Both are spelled by their digits, so the bytes agree if the folded texts do.
    exact Hex.folded_eq_iff (.inl hmarked) (.inl hmarked') hspells hspells'
  case wordCase =>
    intro text text' w w' h h'
    obtain ⟨hok, -⟩ := Word.parse_iff text
    obtain ⟨hok', -⟩ := Word.parse_iff text'
    obtain ⟨digits, hbody, hspells⟩ := (hok w).mp h
    obtain ⟨digits', hbody', hspells'⟩ := (hok' w').mp h'
    rw [← FixedBytes.toList_inj]
    exact Hex.folded_eq_iff hbody hbody' hspells hspells'

/-- One address in two spellings, and two words that differ in more than the mark. -/
theorem address_and_word_spelling_cases :
    Address.parse "0x00000000000000000000000000000000000000aB" = .ok (.ofNat 0xab) ∧
    Address.parse "0X00000000000000000000000000000000000000Ab" = .ok (.ofNat 0xab) ∧
    Hex.folded "0x00000000000000000000000000000000000000aB" =
      Hex.folded "0X00000000000000000000000000000000000000Ab" ∧
    Word.parse "0x00000000000000000000000000000000000000000000000000000000000000ab" =
      .ok (.ofNat 0xab) ∧
    Word.parse "00000000000000000000000000000000000000000000000000000000000000BA" = .ok (.ofNat 0xba) ∧
    Hex.folded "0x00000000000000000000000000000000000000000000000000000000000000ab" ≠
      Hex.folded "00000000000000000000000000000000000000000000000000000000000000BA" := by
  obtain ⟨-, -, -, -, haddresses, hwords⟩ := address_and_word_spelling
  have hlower : Address.parse "0x00000000000000000000000000000000000000aB" = .ok (.ofNat 0xab) := by decide
  have hupper : Address.parse "0X00000000000000000000000000000000000000Ab" = .ok (.ofNat 0xab) := by decide
  have hmarked : Word.parse "0x00000000000000000000000000000000000000000000000000000000000000ab" =
      .ok (.ofNat 0xab) := by decide
  have hunmarked : Word.parse "00000000000000000000000000000000000000000000000000000000000000BA" =
      .ok (.ofNat 0xba) := by decide
  refine ⟨hlower, hupper, (haddresses _ _ _ _ hlower hupper).mp rfl, hmarked, hunmarked, fun hsame => ?_⟩
  have hword := (hwords _ _ _ _ hmarked hunmarked).mpr hsame
  exact absurd hword (by decide)

end BridgeMint
