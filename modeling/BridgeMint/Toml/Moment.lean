/-!
# Dates and times in TOML

A date, a time, or a date with a time and perhaps the offset of its time zone.  The two parts of a
date with a time are joined by a letter or by one blank.
-/

namespace BridgeMint

namespace Toml

def twoDigits? (a b : Char) : Option Nat :=
  if a.isDigit ∧ b.isDigit then some (10 * (a.toNat - 48) + (b.toNat - 48)) else none

def twoDigitsIn (low high : Nat) (a b : Char) : Bool :=
  match twoDigits? a b with
  | none => false
  | some n => low ≤ n && n ≤ high

def daysOfMonth (year month : Nat) : Nat :=
  if month = 2 then
    if year % 4 = 0 ∧ (year % 100 ≠ 0 ∨ year % 400 = 0) then 29 else 28
  else if month = 4 ∨ month = 6 ∨ month = 9 ∨ month = 11 then 30
  else 31

/-- What follows the date at the front of a text, if there is one. -/
def afterDate? : List Char → Option (List Char)
  | y₁ :: y₂ :: y₃ :: y₄ :: '-' :: m₁ :: m₂ :: '-' :: d₁ :: d₂ :: rest =>
    match twoDigits? y₁ y₂, twoDigits? y₃ y₄, twoDigits? m₁ m₂ with
    | some century, some year, some month =>
      if 1 ≤ month ∧ month ≤ 12 ∧ twoDigitsIn 1 (daysOfMonth (100 * century + year) month) d₁ d₂
      then some rest
      else none
    | _, _, _ => none
  | _ => none

/-- What follows the fraction of a second at the front of a text; a point needs a digit. -/
def afterFraction? : List Char → Option (List Char)
  | '.' :: d :: rest => if d.isDigit then some (rest.dropWhile Char.isDigit) else none
  | '.' :: [] => none
  | cs => some cs

/-- What follows the time of day at the front of a text, if there is one. -/
def afterTime? : List Char → Option (List Char)
  | h₁ :: h₂ :: ':' :: m₁ :: m₂ :: ':' :: s₁ :: s₂ :: rest =>
    if twoDigitsIn 0 23 h₁ h₂ ∧ twoDigitsIn 0 59 m₁ m₂ ∧ twoDigitsIn 0 60 s₁ s₂ then
      afterFraction? rest
    else none
  | _ => none

/-- Whether a text is empty or the offset of a time zone. -/
def isOffset : List Char → Bool
  | [] => true
  | [z] => z = 'Z' || z = 'z'
  | [sign, h₁, h₂, ':', m₁, m₂] =>
    (sign = '+' || sign = '-') && twoDigitsIn 0 23 h₁ h₂ && twoDigitsIn 0 59 m₁ m₂
  | _ => false

/-- Whether a text is a time, with or without an offset. -/
def isZonedTime (cs : List Char) : Bool :=
  match afterTime? cs with
  | none => false
  | some rest => isOffset rest

def isDate (cs : List Char) : Bool :=
  afterDate? cs == some []

def isTime (cs : List Char) : Bool :=
  afterTime? cs == some []

/-- Whether a text is a date and a time joined by a letter. -/
def isDateTime (cs : List Char) : Bool :=
  match afterDate? cs with
  | some ('T' :: time) | some ('t' :: time) => isZonedTime time
  | _ => false

/-- Whether a text is a date, a time or both. -/
def isMoment (cs : List Char) : Bool :=
  isDate cs || isTime cs || isDateTime cs

end Toml

end BridgeMint
