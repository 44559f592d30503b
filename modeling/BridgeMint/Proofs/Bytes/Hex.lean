import BridgeMint.Address
import BridgeMint.Proofs.UInt256.Word

/-!
# Hexadecimal text stands for bytes

A text of digits, of either case and even in number, is read as the bytes that it spells, and the
text written for bytes is such a text.  So addresses and words come back from the form they are
printed in.
-/

namespace BridgeMint

namespace Hex

/-! ## Digits -/

/-- Every character of a text is a hexadecimal digit, of either case. -/
def AllDigits (text : List Char) : Prop :=
  ∀ c ∈ text, (digitValue? c).isSome

instance (text : List Char) : Decidable (AllDigits text) :=
  decidable_of_iff (text.all fun c => (digitValue? c).isSome) List.all_eq_true

/-- The number that digits with the given values spell, most significant first, after a number
already read. -/
def appendValues (soFar : Nat) (values : List Nat) : Nat :=
  values.foldl (fun n v => 16 * n + v) soFar

/-- The number that hexadecimal digits spell, most significant first. -/
def value (digits : List Char) : Nat :=
  appendValues 0 (digits.filterMap digitValue?)

variable {c : Char} {v : Nat} {text : List Char}

theorem allDigits_cons : AllDigits (c :: text) ↔ (digitValue? c).isSome ∧ AllDigits text := by
  simp [AllDigits]

/-- A digit has a value below sixteen, and is a character of one byte. -/
theorem digitValue?_bounds (h : digitValue? c = some v) : v < 16 ∧ c.toNat < 128 := by
  simp only [digitValue?, Char.le_def, UInt32.le_iff_toNat_le, Char.toNat_val,
    Char.reduceToNat] at h
  -- The digits, the lower-case letters and the upper-case letters, one range each.
  split at h
  · simp only [Option.some.injEq] at h
    omega
  · split at h
    · simp only [Option.some.injEq] at h
      omega
    · simp only [Option.ite_none_right_eq_some, Option.some.injEq] at h
      omega

/-- Digits are as many bytes as characters. -/
theorem utf8Length_of_allDigits (h : AllDigits text) : utf8Length text = text.length := by
  induction text with
  | nil => rfl
  | cons c text ih =>
    obtain ⟨hc, htext⟩ := allDigits_cons.mp h
    obtain ⟨v, hv⟩ := Option.isSome_iff_exists.mp hc
    have hsize : c.utf8Size = 1 := by
      rw [Char.utf8Size_eq_one_iff, UInt32.le_iff_toNat_le]
      obtain ⟨-, hascii⟩ := digitValue?_bounds hv
      exact Nat.le_of_lt_succ hascii
    have hrest := ih htext
    simp only [utf8Length, List.foldr_cons, hsize, List.length_cons] at *
    omega

/-- In a text of digits there is nothing to report. -/
theorem badDigit?_of_allDigits (h : AllDigits text) (index : Nat) : badDigit? index text = none := by
  induction text generalizing index with
  | nil => rfl
  | cons c text ih =>
    obtain ⟨hc, htext⟩ := allDigits_cons.mp h
    obtain ⟨v, hv⟩ := Option.isSome_iff_exists.mp hc
    rw [badDigit?, hv]
    exact ih htext (index + 1)

/-- The first character that is no digit is the one that is reported. -/
theorem badDigit?_append {front back : List Char} (hfront : AllDigits front)
    (hc : digitValue? c = none) (index : Nat) :
    badDigit? index (front ++ c :: back) =
      some (.badDigit (leadByte c) (index + front.length)) := by
  induction front generalizing index with
  | nil => simp [badDigit?, hc]
  | cons d front ih =>
    obtain ⟨hd, hfront⟩ := allDigits_cons.mp hfront
    obtain ⟨v, hv⟩ := Option.isSome_iff_exists.mp hd
    rw [List.cons_append, badDigit?, hv, List.length_cons, Nat.add_comm front.length, ← Nat.add_assoc]
    exact ih hfront (index + 1)

/-- Every digit has a value. -/
theorem length_filterMap_digitValue? (h : AllDigits text) :
    (text.filterMap digitValue?).length = text.length := by
  induction text with
  | nil => rfl
  | cons c text ih =>
    obtain ⟨hc, htext⟩ := allDigits_cons.mp h
    obtain ⟨v, hv⟩ := Option.isSome_iff_exists.mp hc
    rw [List.filterMap_cons_some hv, List.length_cons, ih htext, List.length_cons]

theorem lt_of_mem_filterMap (h : v ∈ text.filterMap digitValue?) : v < 16 := by
  obtain ⟨c, -, hc⟩ := List.mem_filterMap.mp h
  obtain ⟨hlt, -⟩ := digitValue?_bounds hc
  exact hlt

/-- Digits put behind a number leave it short of the next one with as many digits behind it. -/
theorem appendValues_lt {values : List Nat} (hvalues : ∀ v ∈ values, v < 16) (n : Nat) :
    appendValues n values < (n + 1) * 16 ^ values.length := by
  induction values generalizing n with
  | nil => simp [appendValues]
  | cons v rest ih =>
    have hv := hvalues v (by simp)
    calc appendValues n (v :: rest)
        < (16 * n + v + 1) * 16 ^ rest.length := ih (fun w hw => hvalues w (by simp [hw])) _
      _ ≤ ((n + 1) * 16) * 16 ^ rest.length := Nat.mul_le_mul_right _ (by omega)
      _ = (n + 1) * 16 ^ (v :: rest).length := by rw [List.length_cons, pow_succ]; ring

/-- Digits spell a number that needs no more of them. -/
theorem value_lt (h : AllDigits text) : value text < 16 ^ text.length := by
  have hvalues : ∀ v ∈ text.filterMap digitValue?, v < 16 := fun v hv => lt_of_mem_filterMap hv
  have hlt := appendValues_lt hvalues 0
  rwa [length_filterMap_digitValue? h, Nat.zero_add, Nat.one_mul] at hlt

/-! ## Bytes -/

/-- Every two digits make a byte; an odd one at the end is dropped. -/
theorem length_joinDigits (values : List Nat) : (joinDigits values).length = values.length / 2 := by
  fun_induction joinDigits values with
  | case1 high low rest ih => simp only [List.length_cons, ih]; omega
  | case2 values hshort =>
    match values, hshort with
    | [], _ => rfl
    | [_], _ => simp
    | high :: low :: rest, hshort => exact absurd rfl (hshort high low rest)

/-- Digits joined two by two spell the same number as before. -/
theorem bigEndianValue_joinDigits {values : List Nat} (hdigits : ∀ v ∈ values, v < 16)
    (heven : values.length % 2 = 0) :
    Bytes.bigEndianValue (joinDigits values) = appendValues 0 values := by
  -- The induction needs the value to be carried on from any number already read.
  suffices hfrom : ∀ n, (joinDigits values).foldl (fun acc b => 256 * acc + b.toNat) n =
      appendValues n values from hfrom 0
  fun_induction joinDigits values with
  | case1 high low rest ih =>
    intro n
    have hhigh := hdigits high (by simp)
    have hlow := hdigits low (by simp)
    have hbyte : (UInt8.ofNat (16 * high + low)).toNat = 16 * high + low :=
      UInt8.toNat_ofNat_of_lt (by simp only [UInt8.size]; omega)
    -- A byte counts 256 times what came before, which is two steps of sixteen.
    have hpair : 256 * n + (16 * high + low) = 16 * (16 * n + high) + low := by omega
    simp only [List.length_cons] at heven
    rw [List.foldl_cons, hbyte, hpair]
    exact ih (fun v hv => hdigits v (by simp [hv])) (by omega) _
  | case2 values hshort =>
    intro n
    match values, hshort with
    | [], _ => rfl
    | [_], _ => simp at heven
    | high :: low :: rest, hshort => exact absurd rfl (hshort high low rest)

/-- An even number of digits is read as bytes. -/
theorem decode_of_allDigits (h : AllDigits text) (heven : text.length % 2 = 0) :
    decode text = .ok (joinDigits (text.filterMap digitValue?)) := by
  have hlength : ¬ utf8Length text % 2 = 1 := by
    rw [utf8Length_of_allDigits h]
    omega
  rw [decode, if_neg hlength, badDigit?_of_allDigits h]

/-! ## Digits that spell bytes -/

/-- Digits that spell bytes: two for each byte, the high one first, each of either case. -/
inductive Spells : List Char → Bytes → Prop
  | nil : Spells [] []
  | cons {high low : Char} {b : UInt8} {digits : List Char} {bytes : Bytes}
      (high_value : digitValue? high = some (b.toNat / 16))
      (low_value : digitValue? low = some (b.toNat % 16)) (rest : Spells digits bytes) :
      Spells (high :: low :: digits) (b :: bytes)

namespace Spells

variable {digits : List Char} {bytes : Bytes}

theorem allDigits (h : Spells digits bytes) : AllDigits digits := by
  induction h with
  | nil => exact nofun
  | cons high_value low_value _ ih =>
    rw [allDigits_cons, allDigits_cons, high_value, low_value]
    exact ⟨rfl, rfl, ih⟩

theorem length_eq (h : Spells digits bytes) : digits.length = 2 * bytes.length := by
  induction h with
  | nil => rfl
  | cons _ _ _ ih =>
    simp only [List.length_cons, ih]
    omega

/-- The two digits of a byte are joined to this byte. -/
theorem joinDigits_eq (h : Spells digits bytes) :
    joinDigits (digits.filterMap digitValue?) = bytes := by
  induction h with
  | nil => rfl
  | cons high_value low_value _ ih =>
    rw [List.filterMap_cons_some high_value, List.filterMap_cons_some low_value, joinDigits, ih,
      Nat.div_add_mod, UInt8.ofNat_toNat]

/-- The digits spell the value of the bytes, most significant first. -/
theorem value_eq (h : Spells digits bytes) : value digits = Bytes.bigEndianValue bytes := by
  have heven : (digits.filterMap digitValue?).length % 2 = 0 := by
    rw [length_filterMap_digitValue? h.allDigits, h.length_eq]
    omega
  rw [value, ← bigEndianValue_joinDigits (fun v hv => lt_of_mem_filterMap hv) heven, h.joinDigits_eq]

theorem decode_eq (h : Spells digits bytes) : decode digits = .ok bytes := by
  rw [decode_of_allDigits h.allDigits (by rw [h.length_eq]; omega), h.joinDigits_eq]

end Spells

/-- An even number of digits spells bytes. -/
theorem exists_spells : ∀ {digits : List Char}, AllDigits digits → digits.length % 2 = 0 →
    ∃ bytes, Spells digits bytes
  | [], _, _ => ⟨[], .nil⟩
  | [_], _, heven => by simp at heven
  | high :: low :: rest, h, heven => by
    obtain ⟨hhigh, h⟩ := allDigits_cons.mp h
    obtain ⟨hlow, h⟩ := allDigits_cons.mp h
    obtain ⟨v, hv⟩ := Option.isSome_iff_exists.mp hhigh
    obtain ⟨u, hu⟩ := Option.isSome_iff_exists.mp hlow
    obtain ⟨hv', -⟩ := digitValue?_bounds hv
    obtain ⟨hu', -⟩ := digitValue?_bounds hu
    simp only [List.length_cons] at heven
    obtain ⟨bytes, hbytes⟩ := exists_spells h (by omega)
    -- The byte that the first two digits spell.
    have hbyte : (UInt8.ofNat (16 * v + u)).toNat = 16 * v + u :=
      UInt8.toNat_ofNat_of_lt (by simp only [UInt8.size]; omega)
    have hdiv : (16 * v + u) / 16 = v := by omega
    have hmod : (16 * v + u) % 16 = u := by omega
    refine ⟨UInt8.ofNat (16 * v + u) :: bytes, .cons ?_ ?_ hbytes⟩
    · rw [hbyte, hdiv, hv]
    · rw [hbyte, hmod, hu]

/-! ## What is written is read back -/

theorem digitValue?_lowerDigit {n : Nat} (h : n < 16) : digitValue? (lowerDigit n) = some n := by
  have hall : ∀ n < 16, digitValue? (lowerDigit n) = some n := by decide
  exact hall n h

theorem digitValue?_upperDigit {n : Nat} (h : n < 16) : digitValue? (upperDigit n) = some n := by
  have hall : ∀ n < 16, digitValue? (upperDigit n) = some n := by decide
  exact hall n h

/-- Every character written for bytes is the digit of a value below sixteen. -/
theorem exists_of_mem_encodeWith {digit : Nat → Char} {bytes : Bytes}
    (h : c ∈ encodeWith digit bytes) : ∃ n < 16, c = digit n := by
  obtain ⟨b, -, hb⟩ := List.mem_flatMap.mp h
  have hlt := b.toNat_lt
  simp only [List.mem_cons, List.not_mem_nil, or_false] at hb
  rcases hb with rfl | rfl
  · exact ⟨b.toNat / 16, by omega, rfl⟩
  · exact ⟨b.toNat % 16, by omega, rfl⟩

/-- What is written for bytes with digits of their values spells the bytes. -/
theorem spells_encodeWith {digit : Nat → Char} (hdigit : ∀ {n}, n < 16 → digitValue? (digit n) = some n)
    (bytes : Bytes) : Spells (encodeWith digit bytes) bytes := by
  induction bytes with
  | nil => exact .nil
  | cons b rest ih =>
    have hlt := b.toNat_lt
    exact .cons (hdigit (by omega)) (hdigit (by omega)) ih

theorem spells_lower (bytes : Bytes) : Spells (encodeWith lowerDigit bytes) bytes :=
  spells_encodeWith digitValue?_lowerDigit bytes

theorem spells_upper (bytes : Bytes) : Spells (encodeWith upperDigit bytes) bytes :=
  spells_encodeWith digitValue?_upperDigit bytes

/-- The mark in front of hexadecimal text is recognized. -/
theorem unmarked?_encodeMarked (bytes : Bytes) :
    unmarked? (encodeMarked bytes).toList = some (encodeWith lowerDigit bytes) := by
  simp [encodeMarked, encode, unmarked?]

end Hex

/-! ## Addresses and words -/

theorem FixedBytes.ofList?_toList {n : Nat} (a : FixedBytes n) : ofList? a.toList = some a := by
  simp [ofList?, a.length_toList]

/-- An address comes back from the text it is printed as. -/
theorem Address.parse_text (address : Address) : Address.parse address.text = .ok address := by
  simp only [Address.parse, FixedBytes.text, Hex.unmarked?_encodeMarked, (Hex.spells_lower _).decode_eq,
    Address.ofBytes, FixedBytes.ofList?_toList]

/-- A word comes back from the text it is printed as. -/
theorem Word.parse_text (word : Word) : Word.parse word.text = .ok word := by
  simp only [Word.parse, FixedBytes.text, Hex.unmarked?_encodeMarked, Option.getD_some,
    (Hex.spells_lower _).decode_eq, Word.ofBytes, FixedBytes.ofList?_toList]

end BridgeMint
