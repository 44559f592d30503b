import BridgeMint.Toml.Quoted
import BridgeMint.Toml.Text
import Mathlib.Tactic.Common

/-!
# Texts written in TOML are read back

A text comes back from each of the four forms that can hold it, and the form that is chosen can.
Between double quotes every character is written as itself, by a letter or by its number, and reading
undoes each of the three.  Between three quotes a quote may stand for itself as long as no three of
them come together: after one that does, there comes another character, one quote and another
character, or the end of the text with at most one quote before it.
-/

namespace BridgeMint

namespace Toml

/-! ## Kinds of characters -/

/-- A character that needs no backslash may stand in a text, unless it is a line break. -/
theorem isTextChar_of_not_needsEscape {c : Char} (h : needsEscape c = false) (hbreak : c ≠ '\n') :
    isTextChar c := by
  have hcontrol : ¬ c < ' ' ∨ c = '\t' := by
    by_contra hnot
    simp [needsEscape, hbreak, not_or.mp hnot] at h
  have hdelete : c ≠ '\x7f' := by
    rintro rfl
    cases h
  -- The tabulator is the one control that may.
  rcases hcontrol with hplain | rfl
  · have hspace : ' ' ≤ c := Char.not_lt.mp hplain
    simp [isTextChar, hspace, hdelete]
  · decide

/-- The characters that a backslash is needed for have numbers below 128. -/
theorem toNat_lt_of_needsEscape {c : Char} (h : needsEscape c) : c.toNat < 128 := by
  by_cases hdelete : c = '\x7f'
  · subst hdelete
    decide
  · have hlt : c < ' ' := by
      by_contra hnot
      simp [needsEscape, hnot, hdelete] at h
    have hsmall : c.toNat < 32 := hlt
    omega

theorem push_some (c : Char) (s rest : List Char) :
    push (some c) (some (s, rest)) = some (c :: s, rest) :=
  rfl

/-! ## Characters by number -/

theorem hexValue?_upperDigit {n : Nat} (h : n < 16) : hexValue? (upperDigit n) = some n := by
  have hall : ∀ n < 16, hexValue? (upperDigit n) = some n := by decide
  exact hall n h

/-- The number of a control is read as the control. -/
theorem numberedChar?_numbered {c : Char} (h : needsEscape c) :
    numberedChar? ['0', '0', upperDigit (c.toNat / 16), upperDigit (c.toNat % 16)] = some c := by
  have hlt := toNat_lt_of_needsEscape h
  have hzero : hexValue? '0' = some 0 := by decide
  have hhigh := hexValue?_upperDigit (n := c.toNat / 16) (by omega)
  have hlow := hexValue?_upperDigit (n := c.toNat % 16) (by omega)
  have hnumber : hexNumber? ['0', '0', upperDigit (c.toNat / 16), upperDigit (c.toNat % 16)] =
      some c.toNat := by
    simp only [hexNumber?, List.foldlM_cons, List.foldlM_nil, hzero, hhigh, hlow, Option.map_some,
      Option.bind_eq_bind, Option.bind_some, Option.pure_def, Option.some.injEq]
    omega
  have hvalid : c.toNat.isValidChar := c.valid
  rw [numberedChar?, hnumber]
  simp only [if_pos hvalid, Char.ofNat_toNat]

/-! ## One character -/

/-- The ways one character stands between double quotes. -/
inductive Stands : Char → List Char → Prop where
  /-- For itself. -/
  | plain {c : Char} (htext : isTextChar c) (hquote : c ≠ '"') (hslash : c ≠ '\\') : Stands c [c]
  | letter {c letter : Char} (hvalue : letterValue? letter = some c) : Stands c ['\\', letter]
  | number {c : Char} (hcontrol : needsEscape c) : Stands c (numbered c)

/-- A character other than a quote is written in one of these ways; only a line break in a text of
several lines is not. -/
theorem stands_writeChar {c : Char} (lines : Bool) (hquote : c ≠ '"')
    (hbreak : lines = true → c ≠ '\n') : Stands c (writeChar lines c) := by
  unfold writeChar
  split
  case isTrue h => exact .letter (by subst h; decide)
  split
  case isTrue h => exact .letter (by subst h; decide)
  split
  -- The line break, which keeps its own form in a text of several lines.
  case isTrue h =>
    rw [if_neg fun hlines => hbreak hlines h]
    exact .letter (by subst h; decide)
  case isFalse hnobreak =>
  split
  case isTrue h => exact .letter (by subst h; decide)
  split
  case isTrue h => exact .letter (by subst h; decide)
  split
  case isTrue h => exact .letter (by subst h; decide)
  case isFalse hslash =>
  split
  case isTrue hcontrol => exact .number hcontrol
  case isFalse hplain =>
    exact .plain (isTextChar_of_not_needsEscape (by simpa using hplain) hnobreak) hquote hslash

namespace Stands

variable {c : Char} {written : List Char}

/-- A letter after a backslash neither starts a number nor ends the line. -/
theorem letter_ne {c letter : Char} (h : letterValue? letter = some c) :
    letter ≠ 'u' ∧ letter ≠ 'U' ∧ isBlank letter = false ∧ letter ≠ '\n' := by
  revert h
  fun_cases letterValue? letter <;> intro h <;> first | cases h; done | (subst letter; decide)

/-- What stands for a character starts with neither a quote nor a line break. -/
theorem exists_head (h : Stands c written) : ∃ first later, written = first :: later ∧
    first ≠ '"' ∧ first ≠ '\n' := by
  cases h with
  | plain htext hquote _ =>
    refine ⟨_, _, rfl, hquote, ?_⟩
    rintro rfl
    cases htext
  | letter _ => exact ⟨_, _, rfl, by decide⟩
  | number _ => exact ⟨_, _, rfl, by decide⟩

/-- A character is read from what stands for it, whatever follows. -/
theorem readBasic (h : Stands c written) (rest : List Char) :
    readBasic (written ++ rest) = push (some c) (Toml.readBasic rest) := by
  cases h with
  | plain htext hquote hslash =>
    rw [List.singleton_append, Toml.readBasic, if_pos ⟨htext, hslash⟩]
    all_goals simp [hquote, hslash]
  | letter hvalue =>
    obtain ⟨hu, hU, -⟩ := letter_ne hvalue
    rw [List.cons_append, List.singleton_append, Toml.readBasic, hvalue]
    all_goals simp [hu, hU]
  | number hcontrol =>
    simp only [numbered, List.cons_append, List.nil_append]
    rw [Toml.readBasic, numberedChar?_numbered hcontrol]

/-- A character is read in a text of several lines as it is on one line. -/
theorem readBasicLines (h : Stands c written) (rest : List Char) :
    readBasicLines false (written ++ rest) = push (some c) (Toml.readBasicLines false rest) := by
  cases h with
  | plain htext hquote hslash =>
    by_cases hspace : c = ' '
    · subst hspace
      rfl
    by_cases htab : c = '\t'
    · subst htab
      rfl
    have hbreak : c ≠ '\n' := by
      rintro rfl
      cases htext
    rw [List.singleton_append, Toml.readBasicLines, if_pos ⟨htext, hslash⟩]
    all_goals simp [hquote, hslash, hspace, htab, hbreak]
  | @letter letter hvalue =>
    obtain ⟨hu, hU, hblank, hbreak⟩ := letter_ne hvalue
    -- The backslash does not join this line with the next one.
    have hgoeson : breaksLine (letter :: rest) = false := by
      simp [breaksLine, skipBlanks, hblank, hbreak]
    rw [List.cons_append, List.singleton_append, Toml.readBasicLines, hgoeson, hvalue]
    all_goals simp [hu, hU]
  | number hcontrol =>
    simp only [numbered, List.cons_append, List.nil_append]
    rw [Toml.readBasicLines, numberedChar?_numbered hcontrol]

/-- What stands for a character contains no carriage return. -/
theorem return_not_mem (h : Stands c written) : '\r' ∉ written := by
  cases h with
  | plain htext _ _ =>
    rintro hmem
    rw [List.mem_singleton] at hmem
    subst hmem
    cases htext
  | @letter letter hvalue =>
    have hletter : '\r' ≠ letter := by
      rintro rfl
      cases hvalue
    simp [hletter]
  | number hcontrol =>
    -- An escape by number is written in digits.
    have hdigits : ∀ n < 16, '\r' ≠ upperDigit n := by decide
    have hlt := toNat_lt_of_needsEscape hcontrol
    have hhigh := hdigits (c.toNat / 16) (by omega)
    have hlow := hdigits (c.toNat % 16) (by omega)
    simp [numbered, hhigh, hlow]

end Stands

theorem stands_quote : Stands '"' ['\\', '"'] :=
  .letter (by decide)

/-! ## Texts on one line -/

theorem writeChars_cons {c : Char} (hquote : c ≠ '"') (lines : Bool) (run : Nat) (s : List Char) :
    writeChars lines run (c :: s) = writeChar lines c ++ writeChars lines 0 s := by
  rw [writeChars]
  exact hquote

/-- What is written between double quotes is read back. -/
theorem readBasic_writeChars (s rest : List Char) (run : Nat) :
    readBasic (writeChars false run s ++ '"' :: rest) = some (s, rest) := by
  induction s generalizing run with
  | nil => rfl
  | cons c s ih =>
    by_cases hquote : c = '"'
    · subst hquote
      have hread := stands_quote.readBasic (writeChars false 0 s ++ '"' :: rest)
      rw [ih, push_some] at hread
      exact hread
    · have hstands := stands_writeChar false hquote (by simp)
      rw [writeChars_cons hquote, List.append_assoc, hstands.readBasic, ih, push_some]

/-- Between single quotes every character stands for itself. -/
theorem readLiteral_append {s : List Char} (htext : ∀ c ∈ s, isTextChar c) (hquote : '\'' ∉ s)
    (rest : List Char) : readLiteral (s ++ '\'' :: rest) = some (s, rest) := by
  induction s with
  | nil => rfl
  | cons c s ih =>
    have hc : c ≠ '\'' := fun hc => hquote (hc ▸ List.mem_cons_self)
    rw [List.cons_append, readLiteral, if_pos (htext c List.mem_cons_self),
      ih (fun d hd => htext d (List.mem_cons_of_mem c hd))
        (fun hd => hquote (List.mem_cons_of_mem c hd)), push_some]
    exact hc

/-! ## Quotes in texts of several lines -/

/-- What follows a text does not go on with a quote. -/
def EndsText (quote : Char) (rest : List Char) : Prop :=
  ∀ c ∈ rest.head?, c ≠ quote

/-- A quote right before `cs` stands for itself: it does not close the text, or closes it only
together with those that follow. -/
inductive StandsBefore (quote : Char) : List Char → Prop where
  /-- A character other than a quote comes next. -/
  | other {c : Char} {cs : List Char} (h : c ≠ quote) : StandsBefore quote (c :: cs)
  /-- One further quote comes before such a character. -/
  | quoteOther {c : Char} {cs : List Char} (h : c ≠ quote) : StandsBefore quote (quote :: c :: cs)
  /-- The text ends. -/
  | closing {cs : List Char} (h : EndsText quote cs) :
      StandsBefore quote (quote :: quote :: quote :: cs)
  /-- The text ends after one further quote. -/
  | quoteClosing {cs : List Char} (h : EndsText quote cs) :
      StandsBefore quote (quote :: quote :: quote :: quote :: cs)

/-- Three quotes close a text, and a fourth one is its last character. -/
theorem readBasicLines_closing {rest : List Char} (h : EndsText '"' rest) :
    readBasicLines false ('"' :: '"' :: '"' :: rest) = some ([], rest) ∧
    readBasicLines false ('"' :: '"' :: '"' :: '"' :: rest) = some (['"'], rest) := by
  cases rest with
  | nil => exact ⟨rfl, rfl⟩
  | cons c rest =>
    have hc : c ≠ '"' := h c rfl
    constructor <;> rw [readBasicLines] <;> simp [hc]

/-- A quote that stands for itself is read as a quote. -/
theorem StandsBefore.readBasicLines {cs : List Char} (h : StandsBefore '"' cs) :
    readBasicLines false ('"' :: cs) = push (some '"') (Toml.readBasicLines false cs) := by
  have htext : isTextChar '"' = true ∧ '"' ≠ '\\' := by decide
  -- Three quotes would end the text, so what matters is how many follow.
  cases h with
  | other h =>
    rw [Toml.readBasicLines, if_pos htext]
    all_goals simp [h]
  | quoteOther h =>
    rw [Toml.readBasicLines, if_pos htext]
    all_goals simp [h]
  | closing h =>
    obtain ⟨hthree, hfour⟩ := readBasicLines_closing h
    rw [hthree, hfour, push_some]
  | quoteClosing h =>
    obtain ⟨-, hfour⟩ := readBasicLines_closing h
    rw [hfour, push_some, Toml.readBasicLines]

/-- It is the same with single quotes. -/
theorem readLiteralLines_closing {rest : List Char} (h : EndsText '\'' rest) :
    readLiteralLines ('\'' :: '\'' :: '\'' :: rest) = some ([], rest) ∧
    readLiteralLines ('\'' :: '\'' :: '\'' :: '\'' :: rest) = some (['\''], rest) := by
  cases rest with
  | nil => exact ⟨rfl, rfl⟩
  | cons c rest =>
    have hc : c ≠ '\'' := h c rfl
    constructor <;> rw [readLiteralLines] <;> simp [hc]

/-- A single quote that stands for itself is read as one. -/
theorem StandsBefore.readLiteralLines {cs : List Char} (h : StandsBefore '\'' cs) :
    readLiteralLines ('\'' :: cs) = push (some '\'') (Toml.readLiteralLines cs) := by
  have htext : isTextChar '\'' = true ∨ '\'' = '\n' := by decide
  -- Three quotes would end the text, so what matters is how many follow.
  cases h with
  | other h =>
    rw [Toml.readLiteralLines, if_pos htext]
    all_goals simp [h]
  | quoteOther h =>
    rw [Toml.readLiteralLines, if_pos htext]
    all_goals simp [h]
  | closing h =>
    obtain ⟨hthree, hfour⟩ := readLiteralLines_closing h
    rw [hthree, hfour, push_some]
  | quoteClosing h =>
    obtain ⟨-, hfour⟩ := readLiteralLines_closing h
    rw [hfour, push_some, Toml.readLiteralLines]

/-! ## Texts of several lines between double quotes -/

/-- What is written for a text starts with a quote only if the text does. -/
theorem writeChars_head {c : Char} (hquote : c ≠ '"') (lines : Bool) (run : Nat) (s : List Char) :
    ∃ first later, writeChars lines run (c :: s) = first :: later ∧ first ≠ '"' := by
  rw [writeChars_cons hquote]
  by_cases hbreak : lines = true ∧ c = '\n'
  · obtain ⟨rfl, rfl⟩ := hbreak
    exact ⟨'\n', _, rfl, by decide⟩
  · obtain ⟨first, later, hwritten, hfirst, -⟩ :=
      (stands_writeChar lines hquote fun hlines hc => hbreak ⟨hlines, hc⟩).exists_head
    exact ⟨first, later ++ writeChars lines 0 s, by rw [hwritten]; rfl, hfirst⟩

/-- The first two quotes in a row stand for themselves. -/
theorem writeChars_quote_of_lt {run : Nat} (h : run < 2) (s : List Char) :
    writeChars true run ('"' :: s) = '"' :: writeChars true (run + 1) s := by
  simp [writeChars, h]

/-- The third one gets a backslash, and the count starts again. -/
theorem writeChars_quote_of_le {run : Nat} (h : 2 ≤ run) (s : List Char) :
    writeChars true run ('"' :: s) = '\\' :: '"' :: writeChars true 0 s := by
  simp [writeChars, Nat.not_lt.mpr h]

/-- After a quote that stands for itself, no two further ones come before the closing ones. -/
theorem standsBefore_writeChars (s : List Char) {rest : List Char} (h : EndsText '"' rest)
    {run : Nat} (hrun : 0 < run) :
    StandsBefore '"' (writeChars true run s ++ '"' :: '"' :: '"' :: rest) := by
  cases s with
  | nil => exact .closing h
  | cons c s =>
    by_cases hquote : c = '"'
    · subst hquote
      by_cases hsmall : run < 2
      · -- This is the second quote in a row, so one that comes next would get a backslash.
        rw [writeChars_quote_of_lt hsmall]
        cases s with
        | nil => exact .quoteClosing h
        | cons d s =>
          by_cases hnext : d = '"'
          · subst hnext
            rw [writeChars_quote_of_le (by omega)]
            exact .quoteOther (by decide)
          · obtain ⟨first, later, hwritten, hfirst⟩ := writeChars_head hnext true (run + 1) s
            rw [hwritten]
            exact .quoteOther hfirst
      · rw [writeChars_quote_of_le (by omega)]
        exact .other (by decide)
    · obtain ⟨first, later, hwritten, hfirst⟩ := writeChars_head hquote true run s
      rw [hwritten]
      exact .other hfirst

/-- Whatever number of quotes has come right before it, the rest of a text is read back. -/
theorem readBasicLines_writeChars (s : List Char) {rest : List Char} (h : EndsText '"' rest)
    (run : Nat) :
    readBasicLines false (writeChars true run s ++ '"' :: '"' :: '"' :: rest) = some (s, rest) := by
  induction s generalizing run with
  | nil =>
    obtain ⟨hthree, -⟩ := readBasicLines_closing h
    exact hthree
  | cons c s ih =>
    by_cases hquote : c = '"'
    · subst hquote
      by_cases hsmall : run < 2
      · -- What comes next shows that this quote does not close the text.
        have hstands := standsBefore_writeChars s h (Nat.succ_pos run)
        rw [writeChars_quote_of_lt hsmall, List.cons_append, hstands.readBasicLines, ih, push_some]
      · have hread := stands_quote.readBasicLines (writeChars true 0 s ++ '"' :: '"' :: '"' :: rest)
        rw [ih, push_some] at hread
        rw [writeChars_quote_of_le (by omega)]
        exact hread
    · rw [writeChars_cons hquote, List.append_assoc]
      by_cases hbreak : c = '\n'
      · -- In a text of several lines a line break stands for itself.
        subst hbreak
        show push (some '\n') (readBasicLines false (writeChars true 0 s ++ _)) = _
        rw [ih, push_some]
      · rw [(stands_writeChar true hquote fun _ => hbreak).readBasicLines, ih, push_some]

/-! ## Texts of several lines between single quotes -/

/-- The longest run is no shorter than the one that goes on. -/
theorem le_longestRun (quote : Char) (run : Nat) (s : List Char) : run ≤ longestRun quote run s := by
  induction s generalizing run with
  | nil => exact Nat.le_refl run
  | cons c s ih =>
    rw [longestRun]
    split
    · exact Nat.le_of_succ_le (ih (run + 1))
    · exact Nat.le_max_left _ _

theorem longestRun_cons_self (quote : Char) (run : Nat) (s : List Char) :
    longestRun quote run (quote :: s) = longestRun quote (run + 1) s := by
  rw [longestRun, if_pos rfl]

/-- Without a run there is no quote. -/
theorem not_mem_of_longestRun {quote : Char} {s : List Char} (h : longestRun quote 0 s = 0) :
    quote ∉ s := by
  induction s with
  | nil => exact List.not_mem_nil
  | cons c s ih =>
    rw [longestRun] at h
    split at h
    case isTrue =>
      have hone := le_longestRun quote (0 + 1) s
      omega
    case isFalse hc =>
      have htail : longestRun quote 0 s = 0 := by omega
      simp [ih htail, Ne.symm hc]

/-- After a quote of a text without three quotes in a row, no two further ones come before the
closing ones. -/
theorem standsBefore_append {quote : Char} {s : List Char} {run : Nat}
    (hrun : longestRun quote (run + 1) s ≤ 2) {rest : List Char} (h : EndsText quote rest) :
    StandsBefore quote (s ++ quote :: quote :: quote :: rest) := by
  cases s with
  | nil => exact .closing h
  | cons c s =>
    by_cases hquote : c = quote
    · subst hquote
      rw [longestRun_cons_self] at hrun
      cases s with
      | nil => exact .quoteClosing h
      | cons d s =>
        by_cases hnext : d = c
        · -- Three quotes in a row are excluded.
          subst hnext
          rw [longestRun_cons_self] at hrun
          have hthree := le_longestRun d (run + 1 + 1 + 1) s
          omega
        · exact .quoteOther hnext
    · exact .other hquote

/-- Between three single quotes a text without three of them in a row is read back. -/
theorem readLiteralLines_append {s : List Char} (htext : ∀ c ∈ s, isTextChar c ∨ c = '\n') {run : Nat}
    (hrun : longestRun '\'' run s ≤ 2) {rest : List Char} (h : EndsText '\'' rest) :
    readLiteralLines (s ++ '\'' :: '\'' :: '\'' :: rest) = some (s, rest) := by
  induction s generalizing run with
  | nil =>
    obtain ⟨hthree, -⟩ := readLiteralLines_closing h
    exact hthree
  | cons c s ih =>
    have hlater : ∀ d ∈ s, isTextChar d ∨ d = '\n' := fun d hd => htext d (List.mem_cons_of_mem c hd)
    by_cases hquote : c = '\''
    · subst hquote
      rw [longestRun_cons_self] at hrun
      rw [List.cons_append, (standsBefore_append hrun h).readLiteralLines, ih hlater hrun, push_some]
    · -- Another character ends the run, and what comes after it has no longer one.
      rw [longestRun, if_neg hquote] at hrun
      rw [List.cons_append, readLiteralLines, if_pos (htext c List.mem_cons_self),
        ih hlater (Nat.le_trans (Nat.le_max_right _ _) hrun), push_some]
      all_goals simp [hquote]

/-! ## Every form -/

/-- Whether a form can hold a text.  Between single quotes every character must be able to stand for
itself. -/
def Quotation.Holds (s : List Char) : Quotation → Prop
  | basic | basicLines => True
  | literal => (∀ c ∈ s, isTextChar c) ∧ '\'' ∉ s
  | literalLines => (∀ c ∈ s, isTextChar c ∨ c = '\n') ∧ longestRun '\'' 0 s ≤ 2

/-- Where nothing needs a backslash, everything may stand for itself, line breaks on several lines. -/
theorem isTextChar_or_break {s : List Char} (h : s.any needsEscape = false) :
    ∀ c ∈ s, isTextChar c ∨ c = '\n' := by
  intro c hc
  have hplain : needsEscape c = false := by simpa using List.any_eq_false.mp h c hc
  by_cases hbreak : c = '\n'
  · exact .inr hbreak
  · exact .inl (isTextChar_of_not_needsEscape hplain hbreak)

/-- The form that is chosen for a text can hold it. -/
theorem Quotation.holds_choose (s : List Char) : (choose s).Holds s := by
  unfold choose
  extract_lets controls backslash breaks doubleRun singleRun
  split
  case isTrue => trivial
  split
  case isTrue h =>
    simp only [Bool.and_eq_true, Bool.not_eq_true', decide_eq_true_eq] at h
    -- Between single quotes on one line there are neither controls, nor single quotes, nor line breaks.
    obtain ⟨⟨hcontrols, hrun⟩, hbreaks⟩ := h
    refine ⟨fun c hc => ?_, not_mem_of_longestRun hrun⟩
    have hbreak : c ≠ '\n' := by
      rintro rfl
      simp [breaks, hc] at hbreaks
    exact (isTextChar_or_break hcontrols c hc).resolve_right hbreak
  split
  case isTrue => trivial
  split
  case isTrue h =>
    simp only [Bool.and_eq_true, Bool.not_eq_true', decide_eq_true_eq] at h
    obtain ⟨hcontrols, hrun⟩ := h
    exact ⟨isTextChar_or_break hcontrols, hrun⟩
  split <;> trivial

/-- The line break that is put before a text of several lines is taken off again, and no other. -/
theorem dropBreak_openingBreak {s : List Char} (body : List Char)
    (h : '\n' ∉ s → body.head? ≠ some '\n') : dropBreak (openingBreak s ++ body) = body := by
  rw [openingBreak]
  split
  case isTrue => rfl
  case isFalse hbreak =>
    have hhead := h (by simpa using hbreak)
    cases body with
    | nil => rfl
    | cons c body =>
      have hc : c ≠ '\n' := fun hc => hhead (congrArg some hc)
      rw [List.nil_append, dropBreak]
      simp [hc]

/-- A text that stands between single characters does not look like one between three. -/
theorem append_closing_ne {quote : Char} {body rest : List Char}
    (hbody : ∀ c ∈ body.head?, c ≠ quote) (hrest : EndsText quote rest) (later : List Char) :
    body ++ quote :: rest ≠ quote :: quote :: later := by
  cases body with
  | nil =>
    intro h
    obtain rfl : rest = quote :: later := List.tail_eq_of_cons_eq h
    exact hrest quote rfl rfl
  | cons c body => exact fun h => hbody c rfl (List.head_eq_of_cons_eq h)

/-- What is written between double quotes does not start with a quote. -/
theorem writeChars_head?_ne (s : List Char) :
    ∀ first ∈ (writeChars false 0 s).head?, first ≠ '"' := by
  cases s with
  | nil => rintro _ ⟨⟩
  | cons c s =>
    by_cases hquote : c = '"'
    · subst hquote
      rintro _ ⟨⟩
      decide
    · obtain ⟨first, later, hwritten, hfirst⟩ := writeChars_head hquote false 0 s
      rw [hwritten]
      rintro _ ⟨⟩
      exact hfirst

/-- A text without line breaks is not written with one in front. -/
theorem writeChars_head?_ne_break {s : List Char} (h : '\n' ∉ s) (rest : List Char) :
    (writeChars true 0 s ++ '"' :: rest).head? ≠ some '\n' := by
  cases s with
  | nil => exact fun hhead => absurd (Option.some.inj hhead) (by decide)
  | cons c s =>
    by_cases hquote : c = '"'
    · subst hquote
      exact fun hhead => absurd (Option.some.inj hhead) (by decide)
    · have hbreak : c ≠ '\n' := fun hc => h (hc ▸ List.mem_cons_self)
      obtain ⟨first, later, hwritten, -, hfirst⟩ :=
        (stands_writeChar true hquote fun _ => hbreak).exists_head
      rw [writeChars_cons hquote, hwritten]
      exact fun hhead => hfirst (Option.some.inj hhead)

/-- A text is read back from every form that can hold it. -/
theorem readText?_write {s : List Char} {form : Quotation} (hholds : form.Holds s) {rest : List Char}
    (hdouble : EndsText '"' rest) (hsingle : EndsText '\'' rest) :
    readText? (form.write s ++ rest) = some (s, rest) := by
  cases form with
  | basic =>
    rw [Quotation.write, List.cons_append, List.cons_append, List.append_assoc, List.singleton_append,
      readText?, readBasic_writeChars]
    exact fun later => append_closing_ne (writeChars_head?_ne s) hdouble later
  | literal =>
    -- Without escapes, the text is read as it stands: it has no quote that could end it.
    obtain ⟨htext, hquote⟩ := hholds
    rw [Quotation.write, List.cons_append, List.cons_append, List.append_assoc, List.singleton_append,
      readText?, readLiteral_append htext hquote]
    refine fun later => append_closing_ne (fun c hc heq => ?_) hsingle later
    exact hquote (heq ▸ List.mem_of_mem_head? hc)
  | basicLines =>
    -- A line break after the opening quotes is dropped, and one is written there for every text that needs
    -- it.
    have hopening := dropBreak_openingBreak _ fun hbreak =>
      writeChars_head?_ne_break (s := s) hbreak ('"' :: '"' :: rest)
    rw [Quotation.write]
    simp only [List.append_assoc, List.cons_append, List.nil_append]
    rw [readText?, hopening, readBasicLines_writeChars s hdouble]
  | literalLines =>
    obtain ⟨htext, hrun⟩ := hholds
    have hopening := dropBreak_openingBreak (s ++ '\'' :: '\'' :: '\'' :: rest)
      -- A text that begins with a line break has one.
      fun (hbreak : '\n' ∉ s) hhead => by
        cases s with
        | nil => exact absurd (Option.some.inj hhead) (by decide)
        | cons c s => exact hbreak (Option.some.inj hhead ▸ List.mem_cons_self)
    rw [Quotation.write]
    simp only [List.append_assoc, List.cons_append, List.nil_append]
    rw [readText?, hopening, readLiteralLines_append htext hrun hsingle]

/-- A text comes back from the form that it is written in, with what follows it. -/
theorem readText?_writeText (s rest : List Char) (hdouble : EndsText '"' rest)
    (hsingle : EndsText '\'' rest) : readText? (writeText s ++ rest) = some (s, rest) :=
  readText?_write (Quotation.holds_choose s) hdouble hsingle

/-! ## No carriage returns -/

/-- Between double quotes a carriage return is written as an escape. -/
theorem return_not_mem_writeChars (lines : Bool) (run : Nat) (s : List Char) :
    '\r' ∉ writeChars lines run s := by
  induction s generalizing run with
  | nil => exact List.not_mem_nil
  | cons c s ih =>
    by_cases hquote : c = '"'
    · subst hquote
      rw [writeChars]
      split <;> simp [ih]
    · rw [writeChars_cons hquote, List.mem_append, not_or]
      refine ⟨?_, ih 0⟩
      -- On several lines a line break is written as itself, and everything else as what stands for it.
      by_cases hbreak : lines = true ∧ c = '\n'
      · obtain ⟨rfl, rfl⟩ := hbreak
        decide
      · exact (stands_writeChar lines hquote fun hlines hc => hbreak ⟨hlines, hc⟩).return_not_mem

theorem return_not_mem_of_text {s : List Char} (h : ∀ c ∈ s, isTextChar c ∨ c = '\n') : '\r' ∉ s :=
  fun hmem => absurd (h _ hmem) (by decide)

/-- A text is written without carriage returns, so line breaks in it stay as they are. -/
theorem return_not_mem_writeText (s : List Char) : '\r' ∉ writeText s := by
  have hopening : '\r' ∉ openingBreak s := by
    rw [openingBreak]
    split <;> decide
  -- The forms without escapes are chosen only for texts that have no carriage return.
  have hholds := Quotation.holds_choose s
  rw [writeText]
  cases hform : Quotation.choose s with
  | basic => simp [Quotation.write, return_not_mem_writeChars]
  | basicLines => simp [Quotation.write, hopening, return_not_mem_writeChars]
  | literal =>
    rw [hform] at hholds
    obtain ⟨htext, -⟩ := hholds
    have hplain := return_not_mem_of_text fun c hc => .inl (htext c hc)
    simp [Quotation.write, hplain]
  | literalLines =>
    rw [hform] at hholds
    obtain ⟨htext, -⟩ := hholds
    have hplain := return_not_mem_of_text htext
    simp [Quotation.write, hopening, hplain]

end Toml

end BridgeMint
