/-!
# Control sequences of terminals

Text meant for a terminal may hold control characters and sequences that start with an escape
character: commands, names of windows, data for devices.  Where the text does not go to a terminal
they are left out and white space is kept.  A sequence that is never finished takes the rest of the
text with it.
-/

namespace BridgeMint

namespace Text

/-- Where in a control sequence a text stands. -/
inductive ControlState where
  /-- In no sequence. -/
  | ground
  /-- After an escape character. -/
  | escape
  /-- After an escape character and what selects one of many short sequences. -/
  | selection
  /-- In a command with its numbers. -/
  | command
  /-- At the start of a sequence of data for a device. -/
  | deviceStart
  /-- In the numbers in front of data for a device. -/
  | deviceNumbers
  /-- After the numbers in front of data for a device. -/
  | deviceMark
  /-- In data for a device, or in another sequence that only its end ends. -/
  | data
  /-- In a name for the terminal's window. -/
  | windowName
  deriving DecidableEq, Repr

namespace ControlState

def between (first last c : Char) : Bool :=
  first ≤ c && c ≤ last

/-- Whether a byte of the character's encoding is the one that ends data. -/
def containsEnd (c : Char) : Bool :=
  (String.singleton c).toUTF8.toList.contains 0x9c

/-- Where a text stands after one more character. -/
def next (state : ControlState) (c : Char) : ControlState :=
  if c = '\x18' ∨ c = '\x1a' then .ground
  else if c = '\x1b' then .escape
  else
    match state with
    | ground => .ground
    | escape =>
      if between ' ' '/' c then .selection
      else if c = '[' then .command
      else if c = ']' then .windowName
      else if c = 'P' then .deviceStart
      else if c = 'X' ∨ c = '^' ∨ c = '_' then .data
      else if between '0' '~' c then .ground
      else .escape
    | selection => if between '0' '~' c then .ground else .selection
    | command => if between '@' '~' c then .ground else .command
    | deviceStart =>
      if between '@' '~' c then .data
      else if between '0' '?' c then .deviceNumbers
      else if between ' ' '/' c then .deviceMark
      else .deviceStart
    | deviceNumbers =>
      if between '<' '~' c then .data
      else if between ' ' '/' c then .deviceMark
      else .deviceNumbers
    | deviceMark => if between '0' '~' c then .data else .deviceMark
    | data => if containsEnd c then .ground else .data
    | windowName => if c = '\x07' then .ground else .windowName

/-- Whether a character is white space that is carried out even within a sequence. -/
def isLayout (c : Char) : Bool :=
  c == '\t' || c == '\n' || c == '\x0c' || c == '\r'

def shows (state : ControlState) (c : Char) : Bool :=
  match state with
  | ground => isLayout c || (' ' ≤ c && c ≠ '\x7f')
  | escape | selection | command => isLayout c
  | _ => false

end ControlState

/-- Leaves control sequences out, from a place in one.  White space inside a sequence interrupts it:
`shown` says that the character before is kept, and then the text is read as outside of a sequence
until a control character, with which the sequence goes on. -/
def withoutControlsFrom (state : ControlState) (shown : Bool) : List Char → List Char
  | [] => []
  | c :: rest =>
    if shown then
      if ControlState.ground.shows c then
        c :: withoutControlsFrom (if c.toNat < 128 then state else .ground) true rest
      else withoutControlsFrom (state.next c) false rest
    else if state.shows c then c :: withoutControlsFrom (state.next c) true rest
    else withoutControlsFrom (state.next c) false rest

/-- A text without control characters and control sequences. -/
def withoutControls (text : String) : String :=
  String.ofList (withoutControlsFrom .ground false text.toList)

end Text

end BridgeMint
