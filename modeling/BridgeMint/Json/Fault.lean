import BridgeMint.Json.Number

/-!
# The words of a fault in JSON

A fault lies at a place in the text, which is told apart from what is wrong.  Words that themselves
end with a place, because they quote a text that does, are taken to tell the place of the fault, and
lose it.
-/

namespace BridgeMint

namespace Json

/-! ## Reading from the end -/

/-- What stands before a word at the end of a text; the text is given from its end. -/
def beforeWord? (word : String) (back : List Char) : Option (List Char) :=
  if word.toList.reverse.isPrefixOf back then some (back.drop word.length) else none

/-- What stands before a number of sixty-four bits at the end of a text; the text is given from its
end. -/
def beforeNumber? (back : List Char) : Option (List Char) :=
  match digitRun? back with
  | none => none
  | some (digits, rest) => if digitValue 0 digits.reverse < UInt64.size then some rest else none

/-- What stands before a line and a column at the end of a text; the text is given from its end. -/
def beforePlace? (back : List Char) : Option (List Char) := do
  let back ← beforeNumber? back
  let back ← beforeWord? " column " back
  let back ← beforeNumber? back
  beforeWord? " at line " back

/-! ## Words -/

/-- Words without the place at their end, if they end with one. -/
def withoutPlace (words : String) : String :=
  match beforePlace? words.toList.reverse with
  | none => words
  | some back => String.ofList back.reverse

/-- Why a JSON text has no meaning of the kind wanted, in words. -/
def faultMessage (fault : MeaningError) : String :=
  withoutPlace fault.message

end Json

end BridgeMint
