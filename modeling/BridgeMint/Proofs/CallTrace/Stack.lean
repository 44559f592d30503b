import BridgeMint.CallTrace

/-!
# Traces as stacks

A trace keeps no stack of the open calls: when a call ends, it looks back for the newest frame that has not
ended.  Whatever starts and ends it is given, this comes to the same as a stack of the open calls, of which
an end takes away the top.
-/

namespace BridgeMint

/-! ## Starts and ends -/

/-- What is reported of a call when it ends. -/
structure CallReport where
  output : Bytes
  gasUsed : UInt64
  failure : Option CallError
  deriving DecidableEq

/-- The report as it is kept in a frame, with what went wrong in words. -/
def CallReport.ending (report : CallReport) : CallEnd :=
  ⟨report.output, report.gasUsed, report.failure.map CallError.message⟩

/-- What a trace is told. -/
inductive CallEvent where
  | started (start : CallStart)
  | ended (report : CallReport)
  deriving DecidableEq

namespace CallEvent

def start? : CallEvent → Option CallStart
  | started start => some start
  | ended _ => none

/-- The starts among the events. -/
def starts (events : List CallEvent) : List CallStart :=
  events.filterMap start?

end CallEvent

namespace CallTrace

/-- Records one event. -/
def record (trace : CallTrace) : CallEvent → CallTrace
  | .started start => trace.start start
  | .ended report => trace.finish report.ending

/-- Records events one after another. -/
def recordAll (trace : CallTrace) (events : List CallEvent) : CallTrace :=
  events.foldl record trace

/-! ## The newest open frame -/

/-- All calls of the frames have ended. -/
def AllFinished (frames : List CallFrame) : Prop :=
  ∀ frame ∈ frames, frame.isFinished = true

theorem allFinished_nil : AllFinished [] :=
  List.forall_mem_nil _

theorem allFinished_cons {frame : CallFrame} {frames : List CallFrame} :
    AllFinished (frame :: frames) ↔ frame.isFinished = true ∧ AllFinished frames :=
  List.forall_mem_cons

/-- In which order the frames are listed does not matter. -/
theorem AllFinished.reverse {frames : List CallFrame} (h : AllFinished frames) :
    AllFinished frames.reverse :=
  fun frame hmem => h frame (List.mem_reverse.mp hmem)

/-- An end passes over the frames that are finished. -/
theorem endFirst_append {newer : List CallFrame} (h : AllFinished newer) (ending : CallEnd)
    (older : List CallFrame) :
    endFirst ending (newer ++ older) = newer ++ endFirst ending older := by
  induction newer with
  | nil => rfl
  | cons frame newer ih =>
    obtain ⟨hframe, hnewer⟩ := allFinished_cons.mp h
    rw [List.cons_append, endFirst, if_pos hframe, ih hnewer, List.cons_append]

/-- An end finishes the first frame if it is open. -/
theorem endFirst_open (ending : CallEnd) (start : CallStart) (older : List CallFrame) :
    endFirst ending (⟨start, none⟩ :: older) = ⟨start, some ending⟩ :: older :=
  rfl

/-- Either all frames are finished, or there is one that is open and newer than every other open one. -/
theorem exists_newest_open (newestFirst : List CallFrame) :
    AllFinished newestFirst ∨
      ∃ newer start older, newestFirst = newer ++ ⟨start, none⟩ :: older ∧ AllFinished newer := by
  induction newestFirst with
  | nil => exact .inl allFinished_nil
  | cons frame newestFirst ih =>
    obtain ⟨start, _ | ending⟩ := frame
    · exact .inr ⟨[], start, newestFirst, rfl, allFinished_nil⟩
    · -- The first frame is finished, so the newest open one is among the rest.
      rcases ih with hall | ⟨newer, start', older, rfl, hnewer⟩
      · exact .inl (allFinished_cons.mpr ⟨rfl, hall⟩)
      · exact .inr ⟨⟨start, some ending⟩ :: newer, start', older, rfl,
          allFinished_cons.mpr ⟨rfl, hnewer⟩⟩

variable {trace : CallTrace} {start : CallStart} {ending : CallEnd} {older newer : List CallFrame}

@[simp] theorem frames_start (trace : CallTrace) (start : CallStart) :
    (trace.start start).frames = trace.frames ++ [⟨start, none⟩] :=
  List.reverse_cons

/-- Frames in the order of their starts, seen from the newest one. -/
theorem newestFirst_of_frames {frame : CallFrame} (h : trace.frames = older ++ frame :: newer) :
    trace.newestFirst = newer.reverse ++ frame :: older.reverse := by
  rw [frames, List.reverse_eq_iff] at h
  simpa using h

/-- An end finishes the frame that was started last among the open ones. -/
theorem frames_finish (h : trace.frames = older ++ ⟨start, none⟩ :: newer)
    (hnewer : AllFinished newer) (ending : CallEnd) :
    (trace.finish ending).frames = older ++ ⟨start, some ending⟩ :: newer := by
  rw [frames, finish, newestFirst_of_frames h, endFirst_append hnewer.reverse, endFirst_open]
  simp

/-- An end without an open call is dropped. -/
theorem finish_eq_self (h : AllFinished trace.newestFirst) (ending : CallEnd) :
    trace.finish ending = trace := by
  have hnone := endFirst_append h ending []
  rw [endFirst, List.append_nil] at hnone
  rw [finish, hnone]

/-- All that an end can come to. -/
theorem finish_cases (trace : CallTrace) (ending : CallEnd) :
    (AllFinished trace.frames ∧ trace.finish ending = trace) ∨
      ∃ older start newer, trace.frames = older ++ ⟨start, none⟩ :: newer ∧ AllFinished newer ∧
        (trace.finish ending).frames = older ++ ⟨start, some ending⟩ :: newer := by
  rcases exists_newest_open trace.newestFirst with hall | ⟨newer, start, older, hframes, hnewer⟩
  · exact .inl ⟨hall.reverse, finish_eq_self hall ending⟩
  · -- Seen from the oldest one, what is older stands in front of what is newer.
    have hsplit : trace.frames = older.reverse ++ ⟨start, none⟩ :: newer.reverse := by
      rw [frames, hframes]
      simp
    exact .inr ⟨_, start, _, hsplit, hnewer.reverse, frames_finish hsplit hnewer.reverse ending⟩

/-- A call that ends right after it started is one frame at the end, whatever has not ended before. -/
theorem frames_start_finish (trace : CallTrace) (start : CallStart) (ending : CallEnd) :
    ((trace.start start).finish ending).frames = trace.frames ++ [⟨start, some ending⟩] :=
  frames_finish (frames_start trace start) allFinished_nil ending

/-! ## What stays -/

@[simp] theorem recordAll_nil : trace.recordAll [] = trace := rfl

@[simp] theorem recordAll_cons (trace : CallTrace) (event : CallEvent) (events : List CallEvent) :
    trace.recordAll (event :: events) = (trace.record event).recordAll events :=
  rfl

theorem recordAll_append (trace : CallTrace) (earlier later : List CallEvent) :
    trace.recordAll (earlier ++ later) = (trace.recordAll earlier).recordAll later :=
  List.foldl_append

/-- A frame keeps its start, and a start adds a frame at the end. -/
theorem starts_record (trace : CallTrace) (event : CallEvent) :
    (trace.record event).frames.map CallFrame.start =
      trace.frames.map CallFrame.start ++ CallEvent.starts [event] := by
  cases event with
  | started start =>
    rw [record, frames_start, List.map_append]
    rfl
  | ended report =>
    rw [record]
    rcases trace.finish_cases report.ending with
      ⟨-, hsame⟩ | ⟨older, start, newer, hframes, -, hended⟩
    · rw [hsame]
      exact (List.append_nil _).symm
    · -- Only the end of one frame is written.
      rw [hended, hframes, List.map_append, List.map_append]
      exact (List.append_nil _).symm

/-- The frames are the starts, in their order. -/
theorem starts_recordAll (trace : CallTrace) (events : List CallEvent) :
    (trace.recordAll events).frames.map CallFrame.start =
      trace.frames.map CallFrame.start ++ CallEvent.starts events := by
  induction events generalizing trace with
  | nil => exact (List.append_nil _).symm
  | cons event events ih =>
    rw [recordAll_cons, ih, starts_record, List.append_assoc]
    exact congrArg _ (List.filterMap_append (l := [event])).symm

/-- A finished frame stays where and as it is. -/
theorem getElem?_record {i : Nat} {frame : CallFrame} (hframe : trace.frames[i]? = some frame)
    (hfinished : frame.isFinished = true) (event : CallEvent) :
    (trace.record event).frames[i]? = some frame := by
  cases event with
  | started start =>
    obtain ⟨hi, -⟩ := List.getElem?_eq_some_iff.mp hframe
    rw [record, frames_start, List.getElem?_append_left hi, hframe]
  | ended report =>
    rw [record]
    rcases trace.finish_cases report.ending with
      ⟨-, hsame⟩ | ⟨older, start, newer, hframes, -, hended⟩
    · rw [hsame, hframe]
    · -- The two lists differ in the place of the open frame only.
      rw [hended]
      rw [hframes] at hframe
      rcases Nat.lt_trichotomy i older.length with hi | rfl | hi
      · rw [List.getElem?_append_left hi] at hframe ⊢
        exact hframe
      · rw [List.getElem?_append_right (Nat.le_refl _), Nat.sub_self] at hframe
        cases hframe
        cases hfinished
      · rw [List.getElem?_append_right (Nat.le_of_lt hi)] at hframe ⊢
        obtain ⟨j, hj⟩ : ∃ j, i - older.length = j + 1 := ⟨i - older.length - 1, by omega⟩
        rw [hj, List.getElem?_cons_succ] at hframe ⊢
        exact hframe

theorem getElem?_recordAll {i : Nat} {frame : CallFrame} (hframe : trace.frames[i]? = some frame)
    (hfinished : frame.isFinished = true) (events : List CallEvent) :
    (trace.recordAll events).frames[i]? = some frame := by
  induction events generalizing trace with
  | nil => exact hframe
  | cons event events ih => exact ih (getElem?_record hframe hfinished event)

end CallTrace

/-! ## The stack of open calls -/

/-- The calls so far, and a stack of those that have not ended. -/
structure CallStack where
  /-- In the order of their starts. -/
  frames : List CallFrame
  /-- The places of the open calls among the frames, the newest on top. -/
  pending : List Nat
  deriving DecidableEq

namespace CallStack

def empty : CallStack := ⟨[], []⟩

/-- A start is put on the stack; an end takes the top away, if there is one, and finishes its frame. -/
def record (stack : CallStack) : CallEvent → CallStack
  | .started start => ⟨stack.frames ++ [⟨start, none⟩], stack.frames.length :: stack.pending⟩
  | .ended report =>
    match stack.pending with
    | [] => stack
    | place :: rest =>
      ⟨stack.frames.modify place ({ · with ending := some report.ending }), rest⟩

def recordAll (stack : CallStack) (events : List CallEvent) : CallStack :=
  events.foldl record stack

end CallStack

namespace CallTrace

/-- The places of the open ones among frames that are given newest first.  A place is the number of frames
that are older. -/
def openPlaces : List CallFrame → List Nat
  | [] => []
  | frame :: older => if frame.isFinished then openPlaces older else older.length :: openPlaces older

/-- The stack that a trace stands for. -/
def stack (trace : CallTrace) : CallStack :=
  ⟨trace.frames, openPlaces trace.newestFirst⟩

@[simp] theorem stack_empty : empty.stack = .empty := rfl

/-- Finished frames have no places on the stack. -/
theorem openPlaces_append {newer : List CallFrame} (h : AllFinished newer)
    (older : List CallFrame) : openPlaces (newer ++ older) = openPlaces older := by
  induction newer with
  | nil => rfl
  | cons frame newer ih =>
    obtain ⟨hframe, hnewer⟩ := allFinished_cons.mp h
    rw [List.cons_append, openPlaces, if_pos hframe, ih hnewer]

variable {trace : CallTrace} {start : CallStart} {ending : CallEnd} {older newer : List CallFrame}

/-- If all calls have ended, the stack is empty. -/
theorem openPlaces_of_allFinished (h : AllFinished trace.frames) :
    openPlaces trace.newestFirst = [] := by
  have hnone := openPlaces_append h.reverse []
  rw [frames, List.reverse_reverse, List.append_nil] at hnone
  exact hnone

/-- Of a frame that is followed by finished ones only, the place is on top if it is open. -/
theorem openPlaces_of_frames {frame : CallFrame} (h : trace.frames = older ++ frame :: newer)
    (hnewer : AllFinished newer) :
    openPlaces trace.newestFirst =
      if frame.isFinished then openPlaces older.reverse
      else older.length :: openPlaces older.reverse := by
  rw [newestFirst_of_frames h, openPlaces_append hnewer.reverse, openPlaces, List.length_reverse]

/-- Recording an event is what a stack does. -/
theorem stack_record (trace : CallTrace) (event : CallEvent) :
    (trace.record event).stack = trace.stack.record event := by
  cases event with
  | started start =>
    -- The new frame is open and has all others below it.
    rw [record, stack, frames_start]
    simp [CallStack.record, stack, CallTrace.start, openPlaces, CallFrame.isFinished, frames]
  | ended report =>
    rw [record]
    rcases trace.finish_cases report.ending with
      ⟨hall, hsame⟩ | ⟨older, start, newer, hframes, hnewer, hended⟩
    · -- The stack is empty, too, and drops the end.
      have hempty := openPlaces_of_allFinished hall
      rw [hsame]
      simp only [stack, CallStack.record, hempty]
    · -- The frame that is finished is the one on top, and those below it stay.
      have hbefore := openPlaces_of_frames hframes hnewer
      have hafter := openPlaces_of_frames hended hnewer
      simp only [CallFrame.isFinished, Option.isSome_none, Option.isSome_some, Bool.false_eq_true,
        if_false, if_true] at hbefore hafter
      simp only [stack, CallStack.record, hbefore, hafter, hframes, hended]
      simp [List.modify_eq_take_cons_drop]

/-- Whatever it is given, a trace stands for the stack that is given the same. -/
theorem stack_recordAll (trace : CallTrace) (events : List CallEvent) :
    (trace.recordAll events).stack = trace.stack.recordAll events := by
  induction events generalizing trace with
  | nil => rfl
  | cons event events ih =>
    rw [recordAll_cons, ih, stack_record]
    rfl

end CallTrace

end BridgeMint
