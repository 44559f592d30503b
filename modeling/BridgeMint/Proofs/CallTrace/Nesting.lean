import BridgeMint.Proofs.CallTrace.Stack

/-!
# Nested calls

Calls are well nested if there are as many ends as starts among them, and nowhere more ends than starts so
far.  Such events are those of brackets: they can be taken apart into calls, each of which is a start, the
calls inside, which are well nested themselves, and the end that belongs to the start.  A trace finishes the
frame of every such call with the call's own end, whatever it has recorded before.
-/

namespace BridgeMint

namespace CallEvent

def report? : CallEvent → Option CallReport
  | started _ => none
  | ended report => some report

/-- The ends among the events. -/
def ends (events : List CallEvent) : List CallReport :=
  events.filterMap report?

/-- There are as many ends as starts, and nowhere more ends than starts so far. -/
structure WellNested (events : List CallEvent) : Prop where
  ends_le_starts : ∀ earlier, earlier <+: events → (ends earlier).length ≤ (starts earlier).length
  balanced : (ends events).length = (starts events).length

/-- Events that can be taken apart into calls, and the frames of these calls in the order of their
starts. -/
inductive Matched : List CallEvent → List CallFrame → Prop where
  | nil : Matched [] []
  /-- A call with the calls inside it, and those that follow. -/
  | call {start : CallStart} {report : CallReport} {inner rest : List CallEvent}
      {within later : List CallFrame} (hinner : Matched inner within) (hrest : Matched rest later) :
      Matched (.started start :: inner ++ .ended report :: rest)
        (⟨start, some report.ending⟩ :: within ++ later)

/-- Events that end a number of calls which have been started before them, and apart from these can be taken
apart into calls. -/
inductive Closes : Nat → List CallEvent → Prop where
  | matched {events : List CallEvent} {frames : List CallFrame} (h : Matched events frames) :
      Closes 0 events
  /-- Some calls, the end of a call from before, and what ends the others. -/
  | ended {pending : Nat} {report : CallReport} {inner rest : List CallEvent}
      {frames : List CallFrame} (hinner : Matched inner frames) (hrest : Closes pending rest) :
      Closes (pending + 1) (inner ++ .ended report :: rest)

variable {start : CallStart} {report : CallReport} {events inner rest earlier : List CallEvent}
  {frames : List CallFrame}

@[simp] theorem starts_nil : starts [] = [] := rfl

@[simp] theorem ends_nil : ends [] = [] := rfl

@[simp] theorem starts_started_cons : starts (.started start :: events) = start :: starts events := rfl

@[simp] theorem starts_ended_cons : starts (.ended report :: events) = starts events := rfl

@[simp] theorem ends_started_cons : ends (.started start :: events) = ends events := rfl

@[simp] theorem ends_ended_cons : ends (.ended report :: events) = report :: ends events := rfl

@[simp] theorem starts_append (earlier later : List CallEvent) :
    starts (earlier ++ later) = starts earlier ++ starts later :=
  List.filterMap_append

@[simp] theorem ends_append (earlier later : List CallEvent) :
    ends (earlier ++ later) = ends earlier ++ ends later :=
  List.filterMap_append

/-! ## Taking events apart into calls -/

/-- Events that can be taken apart into calls have an end for every start. -/
theorem Matched.balanced (h : Matched events frames) :
    (ends events).length = (starts events).length := by
  induction h with
  | nil => rfl
  | call _ _ ihinner ihrest =>
    simp only [List.cons_append, ends_started_cons, starts_started_cons, ends_append, starts_append,
      ends_ended_cons, starts_ended_cons, List.length_append, List.length_cons]
    omega

/-- What has happened so far ends before a call, inside it, or behind it. -/
theorem prefix_call_cases (h : earlier <+: .started start :: inner ++ .ended report :: rest) :
    earlier = [] ∨ (∃ inside, earlier = .started start :: inside ∧ inside <+: inner) ∨
      ∃ behind, earlier = .started start :: inner ++ .ended report :: behind ∧ behind <+: rest := by
  cases earlier with
  | nil => exact .inl rfl
  | cons event earlier =>
    obtain ⟨rfl, later, hlater⟩ := List.cons_prefix_cons.mp h
    refine .inr ?_
    rcases List.append_eq_append_iff.mp hlater with ⟨more, rfl, -⟩ | ⟨behind, rfl, hbehind⟩
    · exact .inl ⟨earlier, rfl, List.prefix_append _ _⟩
    · cases behind with
      | nil => exact .inl ⟨inner, by rw [List.append_nil], List.prefix_refl _⟩
      | cons event behind =>
        obtain ⟨rfl, rfl⟩ := List.cons.inj hbehind
        exact .inr ⟨behind, rfl, List.prefix_append _ _⟩

/-- Calls are well nested. -/
theorem Matched.wellNested (h : Matched events frames) : WellNested events := by
  refine ⟨?_, h.balanced⟩
  induction h with
  | nil =>
    intro earlier hprefix
    rw [List.prefix_nil.mp hprefix]
    exact Nat.le_refl _
  | call hinner _ ihinner ihrest =>
    intro earlier hprefix
    rcases prefix_call_cases hprefix with rfl | ⟨inside, rfl, hinside⟩ | ⟨behind, rfl, hbehind⟩
    · exact Nat.le_refl _
    · -- The call itself is open, which leaves room for one more end.
      have hle := ihinner inside hinside
      simp only [ends_started_cons, starts_started_cons, List.length_cons]
      omega
    · -- The call has ended, so it adds a start and an end.
      have hle := ihrest behind hbehind
      have hbalanced := hinner.balanced
      simp only [List.cons_append, ends_started_cons, starts_started_cons, ends_append, starts_append,
        ends_ended_cons, starts_ended_cons, List.length_append, List.length_cons]
      omega

/-- A start in front belongs to the first of the ends. -/
theorem Closes.started {pending : Nat} (h : Closes (pending + 1) events) (start : CallStart) :
    Closes pending (.started start :: events) := by
  cases h with
  | @ended _ report inner rest _ hinner hrest =>
    cases hrest with
    | matched hrest => exact .matched (.call hinner hrest)
    | @ended fewer report' following rest' _ hfollowing hrest =>
      -- The call that is formed stands in front of the next end from before.
      have hcloses : Closes (fewer + 1)
          ((.started start :: inner ++ .ended report :: following) ++ .ended report' :: rest') :=
        .ended (.call hinner hfollowing) hrest
      rwa [List.append_assoc] at hcloses

/-- Counting is enough: events with so many more ends than starts, and nowhere more than that, end so many
calls from before. -/
theorem closes_of_counts {pending : Nat}
    (hsofar : ∀ earlier, earlier <+: events →
      (ends earlier).length ≤ pending + (starts earlier).length)
    (htotal : (ends events).length = pending + (starts events).length) : Closes pending events := by
  -- The induction is on the events, for every number of calls that are open before them.
  induction events generalizing pending with
  | nil =>
    obtain rfl : pending = 0 := by simpa [ends, starts] using htotal.symm
    exact .matched .nil
  | cons event events ih =>
    have hnext : ∀ earlier, earlier <+: events →
        (ends (event :: earlier)).length ≤ pending + (starts (event :: earlier)).length :=
      fun earlier hprefix => hsofar _ (List.cons_prefix_cons.mpr ⟨rfl, hprefix⟩)
    cases event with
    | started start =>
      -- The started call is one more that the rest has to end.
      simp only [ends_started_cons, starts_started_cons, List.length_cons] at hnext htotal
      refine Closes.started (ih (fun earlier hprefix => ?_) ?_) start
      · have := hnext earlier hprefix
        omega
      · omega
    | ended report =>
      simp only [ends_ended_cons, starts_ended_cons, List.length_cons] at hnext htotal
      -- The end belongs to a call from before.
      have hpositive := hnext [] List.nil_prefix
      rw [ends_nil, starts_nil] at hpositive
      obtain ⟨fewer, rfl⟩ : ∃ fewer, pending = fewer + 1 := ⟨pending - 1, by omega⟩
      refine Closes.ended .nil (ih (fun earlier hprefix => ?_) ?_)
      · have := hnext earlier hprefix
        omega
      · omega

/-- Events are well nested exactly if they can be taken apart into calls. -/
theorem wellNested_iff : WellNested events ↔ ∃ frames, Matched events frames := by
  constructor
  · rintro ⟨hsofar, hbalanced⟩
    -- With no call open before, counting leaves nothing to be ended from outside.
    have hcloses : Closes 0 events :=
      closes_of_counts (by simpa using hsofar) (by simpa using hbalanced)
    cases hcloses with
    | matched h => exact ⟨_, h⟩
  · rintro ⟨frames, h⟩
    exact h.wellNested

theorem Matched.allFinished (h : Matched events frames) : CallTrace.AllFinished frames := by
  induction h with
  | nil => exact CallTrace.allFinished_nil
  | call _ _ ihinner ihrest =>
    exact List.forall_mem_append.mpr ⟨CallTrace.allFinished_cons.mpr ⟨rfl, ihinner⟩, ihrest⟩

end CallEvent

namespace CallTrace

open CallEvent

variable {events inner : List CallEvent} {frames : List CallFrame}

/-! ## Recording nested calls -/

theorem call_append {start : CallStart} {report : CallReport} (inner later : List CallEvent) :
    .started start :: inner ++ .ended report :: later =
      (.started start :: inner ++ [.ended report]) ++ later := by
  rw [List.append_assoc, List.singleton_append]

/-- A call whose inside adds finished frames is finished by its own end. -/
theorem frames_recordAll_call {trace : CallTrace} {start : CallStart}
    (hinner : ((trace.start start).recordAll inner).frames = (trace.start start).frames ++ frames)
    (hframes : AllFinished frames) (report : CallReport) :
    (trace.recordAll (.started start :: inner ++ [.ended report])).frames =
      trace.frames ++ ⟨start, some report.ending⟩ :: frames := by
  rw [frames_start, List.append_assoc, List.singleton_append] at hinner
  rw [recordAll_append]
  exact frames_finish hinner hframes report.ending

/-- The frames of nested calls are added at the end, each finished by its own end. -/
theorem frames_recordAll_of_matched (h : Matched events frames) (trace : CallTrace) :
    (trace.recordAll events).frames = trace.frames ++ frames := by
  induction h generalizing trace with
  | nil => exact (List.append_nil _).symm
  | @call start report inner rest within later hinner _ ihinner ihrest =>
    -- The calls inside have ended, so the end finds the frame of its start.
    have hcall := frames_recordAll_call (ihinner (trace.start start)) hinner.allFinished report
    rw [call_append, recordAll_append, ihrest, hcall, List.append_assoc]

/-- Of any events, those in between being well nested, an end belongs to a start: it finishes the frame of
that start for good. -/
theorem getElem?_recordAll_call (trace : CallTrace) {start : CallStart} {report : CallReport}
    {earlier later : List CallEvent} (hinner : WellNested inner) :
    (trace.recordAll
        (earlier ++ (.started start :: inner ++ .ended report :: later))).frames[
          trace.frames.length + (starts earlier).length]? = some ⟨start, some report.ending⟩ := by
  obtain ⟨within, hwithin⟩ := wellNested_iff.mp hinner
  -- The frame of the start stands behind those of all starts before it.
  have hplace : (trace.recordAll earlier).frames.length =
      trace.frames.length + (starts earlier).length := by
    simpa using congrArg List.length (trace.starts_recordAll earlier)
  -- The call is recorded with its frame finished, and what is recorded later leaves finished frames alone.
  have hcall := frames_recordAll_call
    (frames_recordAll_of_matched hwithin ((trace.recordAll earlier).start start))
    hwithin.allFinished report
  rw [recordAll_append, call_append, recordAll_append]
  refine getElem?_recordAll ?_ rfl later
  rw [hcall, ← hplace]
  simp

/-! ## Pairs of starts and ends -/

/-- A trace pairs starts and ends like brackets, whatever it has recorded before.  Its frames are the starts
in their order.  An end finishes the frame that was started last among the open ones, and is dropped if there
is none.  A finished frame does not change any more.  So a trace is what a stack of the open calls comes to;
an end finishes the start to which it belongs, that is, from which well-nested events separate it; and of
well-nested events all calls are finished, each by its own end. -/
theorem recordAll_pairing (trace : CallTrace) (events : List CallEvent) :
    let after := trace.recordAll events
    after.frames.map CallFrame.start = trace.frames.map CallFrame.start ++ starts events ∧
    (∀ report,
      (AllFinished after.frames ∧ after.record (.ended report) = after) ∨
      ∃ older start newer, after.frames = older ++ ⟨start, none⟩ :: newer ∧ AllFinished newer ∧
        (after.record (.ended report)).frames = older ++ ⟨start, some report.ending⟩ :: newer) ∧
    (∀ (i : Nat) frame, trace.frames[i]? = some frame → frame.isFinished = true →
      after.frames[i]? = some frame) ∧
    after.stack = trace.stack.recordAll events ∧
    (∀ earlier start inner report later,
      events = earlier ++ (.started start :: inner ++ .ended report :: later) → WellNested inner →
      after.frames[trace.frames.length + (starts earlier).length]? =
        some ⟨start, some report.ending⟩) ∧
    (WellNested events → ∃ frames, Matched events frames ∧ AllFinished frames ∧
      after.frames = trace.frames ++ frames) := by
  intro after
  refine ⟨trace.starts_recordAll events, fun report => after.finish_cases report.ending,
    fun _ _ hframe hfinished => getElem?_recordAll hframe hfinished events,
    trace.stack_recordAll events, ?belongs, fun hnested => ?nested⟩
  case belongs =>
    rintro earlier start inner report later rfl hinner
    exact trace.getElem?_recordAll_call hinner
  case nested =>
    obtain ⟨frames, hmatched⟩ := wellNested_iff.mp hnested
    exact ⟨frames, hmatched, hmatched.allFinished, frames_recordAll_of_matched hmatched trace⟩

/-- A trace of a call that has ended and of one that was left open. -/
def interruptedTrace : CallTrace :=
  empty.recordAll [.started ⟨.ofNat 1, .ofNat 2, false, [], 90, 0⟩, .ended ⟨[], 20, none⟩,
    .started ⟨.ofNat 1, .ofNat 3, false, [], 80, 0⟩]

/-- A call with a failing call inside. -/
def failingInside : List CallEvent :=
  [.started ⟨.ofNat 7, .ofNat 8, false, [0xaa], 50, 3⟩,
    .started ⟨.ofNat 8, .ofNat 9, false, [], 10, 0⟩,
    .ended ⟨[], 10, some (.outOfGas 11 10)⟩,
    .ended ⟨[0xbb], 30, none⟩]

theorem recordAll_pairing_interrupted :
    let after := interruptedTrace.recordAll failingInside
    WellNested failingInside ∧
    after.frames[0]? = some ⟨⟨.ofNat 1, .ofNat 2, false, [], 90, 0⟩, some ⟨[], 20, none⟩⟩ ∧
    after.frames[2]? =
      some ⟨⟨.ofNat 7, .ofNat 8, false, [0xaa], 50, 3⟩, some ⟨[0xbb], 30, none⟩⟩ ∧
    after.frames[3]? =
      some ⟨⟨.ofNat 8, .ofNat 9, false, [], 10, 0⟩,
        some ⟨[], 10, some "Out of gas: used 11, limit 10"⟩⟩ ∧
    ∃ frames, AllFinished frames ∧ after.frames = interruptedTrace.frames ++ frames := by
  intro after
  obtain ⟨-, -, hstays, -, hbelongs, hnested⟩ := recordAll_pairing interruptedTrace failingInside
  have hwell : WellNested failingInside := wellNested_iff.mpr ⟨_, .call (.call .nil .nil) .nil⟩
  have hinside : WellNested [.started ⟨.ofNat 8, .ofNat 9, false, [], 10, 0⟩,
    .ended ⟨[], 10, some (.outOfGas 11 10)⟩] := wellNested_iff.mpr ⟨_, .call .nil .nil⟩
  have hended := hstays 0 _ rfl rfl
  have houter := hbelongs [] _ _ ⟨[0xbb], 30, none⟩ [] rfl hinside
  have hinner := hbelongs [_] _ [] ⟨[], 10, some (.outOfGas 11 10)⟩ _ rfl (wellNested_iff.mpr ⟨_, .nil⟩)
  obtain ⟨frames, -, hfinished, hframes⟩ := hnested hwell
  exact ⟨hwell, hended, houter, hinner, frames, hfinished, hframes⟩

end CallTrace

end BridgeMint
