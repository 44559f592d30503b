import BridgeMint.Json.Reader
import BridgeMint.Json.Writer
import BridgeMint.Proofs.Json.Number
import BridgeMint.Proofs.Json.Text

/-!
# Data written in JSON are read back

Data whose integers have sixty-four bits and whose lists and tables are whole come back from the text
they are written as on one line, and nothing of what follows the text is taken.  A value never needs
more steps to be read than its text has characters, so the bound on the steps does not get in the
way.
-/

namespace BridgeMint

/-- Data that a JSON text can carry: integers have sixty-four bits, and lists and tables are whole. -/
inductive Datum.Writable : Datum → Prop where
  | null : Writable .null
  | truth (b : Bool) : Writable (.truth b)
  | integer {n : Int} (hlow : -2 ^ 63 ≤ n) (hhigh : n < 2 ^ 64) : Writable (.integer n)
  | text (s : String) : Writable (.text s)
  | list {items : List Datum} (h : ∀ d ∈ items, Writable d) : Writable (.list items true)
  | table {members : List (String × Datum)} (h : ∀ m ∈ members, Writable m.2) :
      Writable (.table members true)

namespace Json

/-! ## Blanks and brackets -/

theorem skipBlanks_cons {c : Char} (cs : List Char) (h : isBlank c = false) :
    skipBlanks (c :: cs) = c :: cs := by
  simp [skipBlanks, h]

/-- What follows an item or a member does not continue a numeral. -/
theorem endsNumeral_cons {c : Char} (rest : List Char) (h : c = ',' ∨ c = ']' ∨ c = '\x7d') :
    EndsNumeral (c :: rest) := by
  rintro _ ⟨⟩
  rcases h with rfl | rfl | rfl <;> decide

/-- Whether a numeral can start with a character. -/
def StartsNumeral (c : Char) : Prop :=
  c = '-' ∨ c.isDigit = true

/-- An integer is written as a numeral. -/
theorem toString_head (n : Int) : ∃ c rest, (toString n).toList = c :: rest ∧ StartsNumeral c := by
  rw [toList_toString]
  split
  · exact ⟨'-', _, rfl, .inl rfl⟩
  · cases hcase : Nat.toDigits 10 n.natAbs with
    | nil => exact absurd hcase Nat.toDigits_ne_nil
    | cons c front =>
      exact ⟨c, front, rfl, .inr (Nat.isDigit_of_mem_toDigits (by decide) (by decide)
        (hcase ▸ List.mem_cons_self))⟩

/-- A character that starts a numeral starts nothing else. -/
theorem StartsNumeral.ne {c : Char} (hc : StartsNumeral c) (special : Char)
    (hspecial : special ≠ '-' ∧ special.isDigit = false) : c ≠ special := by
  rintro rfl
  obtain ⟨hsign, hnodigit⟩ := hspecial
  rcases hc with rfl | hdigit
  · exact hsign rfl
  · rw [hnodigit] at hdigit
    cases hdigit

theorem StartsNumeral.not_isBlank {c : Char} (hc : StartsNumeral c) : isBlank c = false := by
  have hspace := hc.ne ' ' (by decide)
  have hline := hc.ne '\n' (by decide)
  have htab := hc.ne '\t' (by decide)
  have hreturn := hc.ne '\r' (by decide)
  simp [isBlank, hspace, hline, htab, hreturn]

/-- A value starts with a character that is neither blank nor the end of a list. -/
theorem write_head (d : Datum) : ∃ c rest, write d = c :: rest ∧ isBlank c = false ∧ c ≠ ']' := by
  cases d with
  | list items intact => exact ⟨'[', _, by rw [write]; rfl, by decide, by decide⟩
  | table members intact => exact ⟨'\x7b', _, by rw [write]; rfl, by decide, by decide⟩
  | text s => exact ⟨'"', _, rfl, by decide, by decide⟩
  | truth b => cases b <;> exact ⟨_, _, rfl, by decide, by decide⟩
  | integer n =>
    obtain ⟨c, rest, hhead, hc⟩ := toString_head n
    exact ⟨c, rest, hhead, hc.not_isBlank, hc.ne _ (by decide)⟩
  | null | float | moment | broken => exact ⟨_, _, rfl, by decide, by decide⟩

/-! ## Values -/

/-- A value comes back from its text, with what follows it. -/
def ReadsBack (d : Datum) : Prop :=
  ∀ (fuel : Nat) (rest : List Char), (write d).length ≤ fuel → EndsNumeral rest →
    readValue fuel (write d ++ rest) = (d, rest)

/-- A name comes back from its text. -/
theorem readName_writeText (name : String) (rest : List Char) :
    readName (writeText name.toList ++ rest) = some (name, rest) := by
  have hblank : skipBlanks (writeText name.toList ++ rest) =
      '"' :: (name.toList.flatMap writeChar ++ '"' :: rest) := by
    rw [writeText, List.cons_append, List.cons_append, List.append_assoc, List.singleton_append]
    exact skipBlanks_cons _ (by decide)
  rw [readName, hblank]
  simp [readText_flatMap]

/-- Text comes back from what is written for it. -/
theorem readsBack_text (s : String) : ReadsBack (.text s) := by
  intro fuel rest hfuel hrest
  cases fuel with
  | zero => simp [write, writePlain, writeText] at hfuel
  | succ fuel =>
    have htext : write (.text s) ++ rest = '"' :: (s.toList.flatMap writeChar ++ '"' :: rest) := by
      simp [write, writePlain, writeText]
    rw [htext, readValue, skipBlanks_cons _ (by decide)]
    simp [readText_flatMap]

/-- An integer of sixty-four bits comes back from its numeral. -/
theorem readsBack_integer {n : Int} (hlow : -2 ^ 63 ≤ n) (hhigh : n < 2 ^ 64) :
    ReadsBack (.integer n) := by
  intro fuel rest hfuel hrest
  obtain ⟨c, front, hhead, hc⟩ := toString_head n
  have hwrite : write (.integer n) = (toString n).toList := rfl
  have hnumeral := numeral?_toString n hrest
  rw [hwrite] at hfuel ⊢
  rw [hhead] at hfuel hnumeral ⊢
  cases fuel with
  | zero => simp at hfuel
  | succ fuel =>
    have hplain : readPlain (c :: front ++ rest) = (.integer n, rest) := by
      rw [List.cons_append, readPlain, ← List.cons_append, hnumeral]
      · simp only [Numeral.toDatum_ofInt hlow hhigh]
      · exact fun _ h => absurd (List.head_eq_of_cons_eq h) (hc.ne _ (by decide))
      · exact fun _ h => absurd (List.head_eq_of_cons_eq h) (hc.ne _ (by decide))
      · exact fun _ h => absurd (List.head_eq_of_cons_eq h) (hc.ne _ (by decide))
    rw [List.cons_append, readValue, skipBlanks_cons _ hc.not_isBlank, ← List.cons_append]
    -- What starts a numeral starts neither a list, nor a table, nor a text.
    split
    case h_1 h => exact absurd (List.head_eq_of_cons_eq h) (hc.ne _ (by decide))
    case h_2 h => exact absurd (List.head_eq_of_cons_eq h) (hc.ne _ (by decide))
    case h_3 h => exact absurd (List.head_eq_of_cons_eq h) (hc.ne _ (by decide))
    case h_4 => exact hplain

/-! ## Lists and tables -/

theorem readItems_last {item : Datum} (h : ReadsBack item) {fuel : Nat} (rest : List Char)
    (hfuel : (write item).length ≤ fuel) :
    readItems (fuel + 1) (write item ++ ']' :: rest) = ([item], true, rest) := by
  rw [readItems, h _ _ hfuel (endsNumeral_cons _ (by simp))]
  rfl

theorem readItems_comma {item : Datum} (h : ReadsBack item) {fuel : Nat} (rest : List Char)
    (hfuel : (write item).length ≤ fuel) :
    readItems (fuel + 1) (write item ++ ',' :: rest) =
      (item :: (readItems fuel rest).1, (readItems fuel rest).2) := by
  rw [readItems, h _ _ hfuel (endsNumeral_cons _ (by simp))]
  rfl

/-- The items of a list come back, up to the closing bracket. -/
theorem readItems_writeItems {items : List Datum} (hitems : ∀ d ∈ items, ReadsBack d)
    (hnonempty : items ≠ []) (fuel : Nat) (rest : List Char)
    (hfuel : (writeItems items).length < fuel) :
    readItems fuel (writeItems items ++ ']' :: rest) = (items, true, rest) := by
  induction items generalizing fuel with
  | nil => exact absurd rfl hnonempty
  | cons item items ih =>
    obtain ⟨fuel, rfl⟩ : ∃ n, fuel = n + 1 := ⟨fuel - 1, by omega⟩
    have hitem := hitems item (by simp)
    cases items with
    | nil =>
      rw [writeItems] at hfuel ⊢
      exact readItems_last hitem rest (by omega)
    | cons next items =>
      have hwrite : writeItems (item :: next :: items) =
          write item ++ ',' :: writeItems (next :: items) := by
        rw [writeItems]
        simp
      -- Every item takes one step, and its text has at least that many characters.
      have hlength := congrArg List.length hwrite
      rw [List.length_append, List.length_cons] at hlength
      have hrest := ih (fun d hd => hitems d (by simp [hd])) (by simp) fuel (by omega)
      rw [hwrite, List.append_assoc, List.cons_append, readItems_comma hitem _ (by omega), hrest]

/-- A member as it is written. -/
def writeMember (name : String) (value : Datum) : List Char :=
  writeText name.toList ++ ':' :: write value

theorem writeMember_append (name : String) (value : Datum) (rest : List Char) :
    writeMember name value ++ rest = writeText name.toList ++ ':' :: (write value ++ rest) := by
  rw [writeMember, List.append_assoc, List.cons_append]

/-- The last member is followed by the closing brace. -/
theorem readMembers_last {name : String} {value : Datum} (h : ReadsBack value) {fuel : Nat}
    (rest : List Char) (hfuel : (writeMember name value).length ≤ fuel) :
    readMembers (fuel + 1) (writeMember name value ++ '\x7d' :: rest) =
      ([(name, value)], true, rest) := by
  rw [writeMember, List.length_append, List.length_cons] at hfuel
  have hvalue := h fuel ('\x7d' :: rest) (by omega) (endsNumeral_cons _ (by simp))
  have hcolon : ∀ cs, colon? (':' :: cs) = some cs := fun _ => rfl
  rw [writeMember_append, readMembers, readName_writeText]
  simp only [hcolon, hvalue]
  rfl

/-- Every other member is followed by a comma and the next members. -/
theorem readMembers_comma {name : String} {value : Datum} (h : ReadsBack value) {fuel : Nat}
    (rest : List Char) (hfuel : (writeMember name value).length ≤ fuel) :
    readMembers (fuel + 1) (writeMember name value ++ ',' :: rest) =
      ((name, value) :: (readMembers fuel rest).1, (readMembers fuel rest).2) := by
  rw [writeMember, List.length_append, List.length_cons] at hfuel
  have hvalue := h fuel (',' :: rest) (by omega) (endsNumeral_cons _ (by simp))
  have hcolon : ∀ cs, colon? (':' :: cs) = some cs := fun _ => rfl
  rw [writeMember_append, readMembers, readName_writeText]
  simp only [hcolon, hvalue]
  rfl

/-- The members of a table come back, up to the closing brace. -/
theorem readMembers_writeMembers {members : List (String × Datum)}
    (hmembers : ∀ m ∈ members, ReadsBack m.2) (hnonempty : members ≠ []) (fuel : Nat)
    (rest : List Char) (hfuel : (writeMembers members).length < fuel) :
    readMembers fuel (writeMembers members ++ '\x7d' :: rest) = (members, true, rest) := by
  induction members generalizing fuel with
  | nil => exact absurd rfl hnonempty
  | cons member members ih =>
    obtain ⟨fuel, rfl⟩ : ∃ n, fuel = n + 1 := ⟨fuel - 1, by omega⟩
    obtain ⟨name, value⟩ := member
    have hvalue : ReadsBack value := hmembers (name, value) (by simp)
    -- After the last member stands the brace, after any other a comma.
    cases members with
    | nil =>
      have hwrite : writeMembers [(name, value)] = writeMember name value := by
        rw [writeMembers, writeMember]
      rw [hwrite] at hfuel ⊢
      exact readMembers_last hvalue rest (by omega)
    | cons next members =>
      have hwrite : writeMembers ((name, value) :: next :: members) =
          writeMember name value ++ ',' :: writeMembers (next :: members) := by
        rw [writeMembers, writeMember]
        simp
      -- The rest is shorter than the whole, so there is fuel for it.
      have hlength := congrArg List.length hwrite
      rw [List.length_append, List.length_cons] at hlength
      have hrest := ih (fun m hm => hmembers m (by simp [hm])) (by simp) fuel (by omega)
      rw [hwrite, List.append_assoc, List.cons_append, readMembers_comma hvalue _ (by omega), hrest]

/-- A list comes back from its text, whether it is empty or not. -/
theorem readsBack_list {items : List Datum} (h : ∀ d ∈ items, ReadsBack d) :
    ReadsBack (.list items true) := by
  intro fuel rest hfuel hrest
  rw [write, List.length_append, List.length_cons, List.length_singleton] at hfuel
  obtain ⟨fuel, rfl⟩ : ∃ n, fuel = n + 1 := ⟨fuel - 1, by omega⟩
  have hwrite : write (.list items true) ++ rest = '[' :: (writeItems items ++ ']' :: rest) := by
    simp [write]
  rw [hwrite, readValue, skipBlanks_cons _ (by decide)]
  cases items with
  | nil => rfl
  | cons item items =>
    -- The first item does not start with the closing bracket.
    obtain ⟨c, front, hhead, hblank, hclose⟩ : ∃ c front, writeItems (item :: items) = c :: front ∧
        isBlank c = false ∧ c ≠ ']' := by
      obtain ⟨c, front, hhead, hc⟩ := write_head item
      cases items with
      | nil => exact ⟨c, front, by rw [writeItems, hhead], hc⟩
      | cons next items => exact ⟨c, _, by rw [writeItems, hhead]; rfl; simp, hc⟩
    have hitems := readItems_writeItems h (by simp) fuel rest (by omega)
    simp only
    rw [hhead, List.cons_append] at hitems ⊢
    rw [skipBlanks_cons _ hblank]
    split
    case h_1 hend => exact absurd (List.head_eq_of_cons_eq hend) hclose
    case h_2 => rw [hitems]

/-- After an opening brace and the quote of a name there are members. -/
theorem readValue_openTable (fuel : Nat) (cs : List Char) :
    readValue (fuel + 1) ('\x7b' :: '"' :: cs) =
      (.table (readMembers fuel ('"' :: cs)).1 (readMembers fuel ('"' :: cs)).2.1,
        (readMembers fuel ('"' :: cs)).2.2) := by
  rw [readValue, skipBlanks_cons _ (by decide)]
  rfl

/-- A table comes back from its text, whether it is empty or not. -/
theorem readsBack_table {members : List (String × Datum)} (h : ∀ m ∈ members, ReadsBack m.2) :
    ReadsBack (.table members true) := by
  intro fuel rest hfuel hrest
  rw [write, List.length_append, List.length_cons, List.length_singleton] at hfuel
  obtain ⟨fuel, rfl⟩ : ∃ n, fuel = n + 1 := ⟨fuel - 1, by omega⟩
  have hwrite : write (.table members true) ++ rest =
      '\x7b' :: (writeMembers members ++ '\x7d' :: rest) := by
    simp [write]
  rw [hwrite]
  cases members with
  | nil => rfl
  | cons member members =>
    -- The first member starts with the quote of its name.
    obtain ⟨front, hhead⟩ : ∃ front, writeMembers (member :: members) = '"' :: front := by
      cases members with
      | nil => exact ⟨_, by rw [writeMembers, writeText]; rfl⟩
      | cons next members => exact ⟨_, by rw [writeMembers, writeText]; rfl; simp⟩
    have hmembers := readMembers_writeMembers h (by simp) fuel rest (by omega)
    rw [hhead, List.cons_append] at hmembers ⊢
    rw [readValue_openTable, hmembers]

/-- Writable data come back from their text. -/
theorem readsBack {d : Datum} (h : d.Writable) : ReadsBack d := by
  induction h with
  | null =>
    intro fuel rest hfuel hrest
    cases fuel with
    | zero => exact absurd hfuel (by decide)
    | succ fuel => rfl
  | truth b =>
    intro fuel rest hfuel hrest
    cases fuel with
    | zero => cases b <;> exact absurd hfuel (by decide)
    | succ fuel => cases b <;> rfl
  -- The cases below have lemmas of their own; null and truth values are single words.
  | integer hlow hhigh => exact readsBack_integer hlow hhigh
  | text s => exact readsBack_text s
  | list h ih => exact readsBack_list ih
  | table h ih => exact readsBack_table ih

/-- Reading the text of writable data reads the data. -/
theorem decode_encode {α : Type} {d : Datum} (h : d.Writable)
    (read : Datum → Except MeaningError α) : decode read (encode d) = read d := by
  have hread : readDatum (encode d).toList = (d, []) := by
    -- The bound on the steps is twice the length of the text and two more, and the length would do.
    have hback := readsBack h (2 * (write d).length + 2) [] (by omega) (by simp [EndsNumeral])
    rw [List.append_nil] at hback
    rw [encode, String.toList_ofList, readDatum, hback]
  rw [decode, hread]
  cases hvalue : read d with
  | error e => simp only [hvalue]
  | ok value => simp [hvalue, skipBlanks]

end Json

end BridgeMint
