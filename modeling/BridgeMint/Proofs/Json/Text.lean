import BridgeMint.Json.Text
import Mathlib.Tactic.Common

/-!
# Text written in JSON is read back

Every character is written in one of three ways: as itself, by a letter after a backslash, or by its
number.  Reading undoes each of them, whatever follows, so a whole text comes back.
-/

namespace BridgeMint

namespace Json

/-! ## One character -/

/-- The letter that stands for a character is read as that character. -/
theorem letterValue?_escapeLetter {c letter : Char} (h : escapeLetter? c = some letter) :
    letterValue? letter = some c ∧ letter ≠ 'u' := by
  revert h
  fun_cases escapeLetter? c <;> rintro ⟨⟩ <;> subst c <;> decide

theorem hexValue?_digitChar {n : Nat} (h : n < 16) : hexValue? (Nat.digitChar n) = some n := by
  have hall : ∀ n < 16, hexValue? (Nat.digitChar n) = some n := by decide
  exact hall n h

/-- A control's number is read as the control. -/
theorem unit?_of_lt {n : Nat} (h : n < 256) :
    unit? '0' '0' (Nat.digitChar (n / 16)) (Nat.digitChar (n % 16)) = some n := by
  have hhigh := hexValue?_digitChar (n := n / 16) (by omega)
  have hlow := hexValue?_digitChar (n := n % 16) (by omega)
  have hzero : hexValue? '0' = some 0 := by decide
  simp only [unit?, hzero, hhigh, hlow, Option.pure_def, Option.bind_eq_bind, Option.bind_some,
    Option.some.injEq]
  omega

/-- Reading takes the characters written for one character as that character. -/
theorem readText_writeChar (c : Char) (rest : List Char) :
    readText (writeChar c ++ rest) = (readText rest).map fun (s, rest) => (c :: s, rest) := by
  unfold writeChar
  split
  case h_1 letter hletter =>
    -- By a letter, which is not the one that announces a number.
    obtain ⟨hvalue, hu⟩ := letterValue?_escapeLetter hletter
    rw [List.cons_append, List.cons_append, List.nil_append, readText, hvalue]
    intro _ _ _ _ _ hcontra
    exact absurd hcontra hu
  case h_2 hplain =>
    split
    case isTrue hcontrol =>
      have hlt : c.toNat < 32 := hcontrol
      have hself : Char.ofNat c.toNat = c := Char.ofNat_toNat c
      have hunit := unit?_of_lt (n := c.toNat) (by omega)
      -- A control is no half of a surrogate pair, so its number stands for itself.
      have htrail : isTrailUnit c.toNat = false := by
        simp only [isTrailUnit, Bool.and_eq_false_iff, decide_eq_false_iff_not]
        omega
      have hlead : isLeadUnit c.toNat = false := by
        simp only [isLeadUnit, Bool.and_eq_false_iff, decide_eq_false_iff_not]
        omega
      simp only [List.cons_append, List.nil_append]
      rw [readText, hunit]
      simp only [htrail, hlead, hself, Bool.false_eq_true, if_false]
    case isFalse hcontrol =>
      have hquote : c ≠ '"' := by
        rintro rfl
        cases hplain
      have hslash : c ≠ '\\' := by
        rintro rfl
        cases hplain
      -- No other way of reading applies, as the character is neither quote nor backslash.
      rw [List.cons_append, List.nil_append, readText, if_neg (by simp [hcontrol, hslash])]
      · exact fun hc => absurd hc hquote
      · exact fun _ _ _ _ _ hc => absurd hc hslash
      · exact fun _ _ hc => absurd hc hslash

/-! ## A whole text -/

/-- A text comes back after its opening quote, with what follows its closing one. -/
theorem readText_flatMap (s rest : List Char) :
    readText (s.flatMap writeChar ++ '"' :: rest) = some (s, rest) := by
  induction s with
  | nil => rfl
  | cons c s ih =>
    rw [List.flatMap_cons, List.append_assoc, readText_writeChar, ih]
    rfl

end Json

end BridgeMint
