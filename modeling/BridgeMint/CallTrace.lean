import BridgeMint.CallError

/-!
# Call traces

A trace records the calls of messages as they start and end.  It keeps no stack: an end belongs to
the newest call that has not ended yet, and an end without such a call is dropped.
-/

namespace BridgeMint

/-- What is known of a call when it starts. -/
structure CallStart where
  sender : Address
  recipient : Address
  isCreation : Bool
  input : Bytes
  gas : UInt64
  value : UInt256
  deriving DecidableEq

/-- What is known of a call when it ends. -/
structure CallEnd where
  output : Bytes
  gasUsed : UInt64
  /-- What went wrong, in words. -/
  failure : Option String
  deriving DecidableEq

/-- A call and, once it has ended, how. -/
structure CallFrame where
  start : CallStart
  ending : Option CallEnd
  deriving DecidableEq

namespace CallFrame

def isFinished (frame : CallFrame) : Bool :=
  frame.ending.isSome

end CallFrame

/-- The recorded calls, newest first. -/
structure CallTrace where
  newestFirst : List CallFrame
  deriving DecidableEq

namespace CallTrace

def empty : CallTrace := ⟨[]⟩

instance : Inhabited CallTrace := ⟨empty⟩

/-- The calls in the order they started. -/
def frames (trace : CallTrace) : List CallFrame :=
  trace.newestFirst.reverse

def start (trace : CallTrace) (start : CallStart) : CallTrace :=
  ⟨⟨start, none⟩ :: trace.newestFirst⟩

/-- Ends the first frame of a list that has not ended. -/
def endFirst (ending : CallEnd) : List CallFrame → List CallFrame
  | [] => []
  | frame :: rest =>
    if frame.isFinished then frame :: endFirst ending rest
    else { frame with ending := some ending } :: rest

/-- Records that the newest open call ends. -/
def finish (trace : CallTrace) (ending : CallEnd) : CallTrace :=
  ⟨endFirst ending trace.newestFirst⟩

end CallTrace

end BridgeMint
