import BridgeMint.Proofs.Execution.Tracing
import BridgeMint.Proofs.Transition.Message

/-!
# What a trace shows of a message

Keeping a trace makes no difference to what becomes of a message.  A message that is carried out adds one
finished frame at the end of the trace, whatever is recorded there already, or none if it is an instruction
for which the gas did not suffice.
-/

namespace BridgeMint

namespace Message

/-! ## Frames -/

/-- The frame of a message that is a call, or asks for a contract to be created. -/
def callFrame (message : Message) (schedule : GasSchedule) (outcome : Outcome) : CallFrame where
  start :=
    { sender := message.sender, recipient := message.recipient.getD .zero
      isCreation := message.isCreation, input := message.data
      gas := message.gasLimit - message.intrinsicGas schedule, value := message.value }
  ending := some
    { output := outcome.output, gasUsed := outcome.gasUsed - message.intrinsicGas schedule
      failure := outcome.failure.map CallError.message }

/-- The frame of a message that is a mint instruction and takes effect. -/
def mintFrame (message : Message) (schedule : GasSchedule) : CallFrame where
  start :=
    { sender := message.sender, recipient := MintContract.address, isCreation := false
      input := message.data, gas := message.gasLimit - message.intrinsicGas schedule, value := 0 }
  ending := some { output := [], gasUsed := 0, failure := none }

/-- The frames that a message with this outcome adds to a trace. -/
def tracedFrames (message : Message) (schedule : GasSchedule) (outcome : Outcome) : List CallFrame :=
  if outcome.minted then
    if outcome.failure.isNone then [message.mintFrame schedule] else []
  else [message.callFrame schedule outcome]

end Message

namespace Step

variable {σ : Type} {executor : Executor σ} {w w' : World σ}

/-! ## Parts that record nothing -/

/-- Reading the data of a message records nothing. -/
theorem untraced_instruction? (message : Message) :
    Untraced (instruction? message : Step σ (Option Instruction)) := by
  unfold instruction?
  cases message.recipient with
  | none => exact untraced_pure _
  | some recipient =>
    unfold readInstruction
    refine untraced_store.bind fun s => ?_
    cases Instruction.read s message.sender recipient message.data with
    | ok instruction => exact untraced_pure _
    | error rejection =>
      -- Some rejections are given notice of, and a notice is no part of the trace.
      simp only
      cases rejection.notice? with
      | none => exact untraced_pure _
      | some notice => exact (untraced_note notice).bind fun _ => untraced_pure _

/-- The inside of a call records nothing of its own if the executor lets the trace be. -/
theorem untraced_runInside (h : executor.IgnoresTrace) (context : ExecutionContext)
    (message : Message) (meter : GasMeter) :
    Untraced (runInside executor context message meter) := by
  unfold runInside
  cases message.recipient with
  | none => exact untraced_pure _
  | some recipient =>
    refine (untraced_attempt _).bind fun _ => (untraced_attempt _).bind fun _ => ?_
    refine untraced_store.bind fun s => ?_
    cases (s.code recipient).isEmpty with
    | true => exact untraced_pure _
    | false =>
      exact (untraced_executor h _ _).bind fun result =>
        (untraced_charge _ _).bind fun charged => untraced_pure _

/-- Keeping a call or taking it back records nothing. -/
theorem untraced_concludeCall (snapshot : Nat) (ran : Ran) :
    Untraced (concludeCall snapshot ran : Step σ Ran) := by
  unfold concludeCall
  cases ran.failure with
  | none => exact untraced_pure ran
  | some cause =>
    refine (untraced_revertTo snapshot).bind fun _ => ?_
    cases cause <;> exact untraced_pure _

theorem untraced_closeMessage (config : ChainConfig) (context : ExecutionContext) (message : Message)
    (minted : Bool) (ran : Ran) :
    Untraced (closeMessage config context message minted ran : Step σ Outcome) := by
  unfold closeMessage settleFees
  refine ((untraced_attempt _).bind fun _ => untraced_attempt _).bind fun _ => ?_
  exact (untraced_note _).bind fun _ => untraced_pure _

/-! ## No part can tell whether a trace is kept -/

/-- A mint is the same with a trace or without. -/
theorem inert_runInstruction (context : ExecutionContext) (meter : GasMeter)
    (instruction : Instruction) : Inert (runInstruction context meter instruction : Step σ Ran) := by
  unfold runInstruction
  cases meter.charge context.schedule.mint with
  | error cause =>
    exact (untraced_store.bind fun s => (untraced_change _).bind fun _ => untraced_pure _).inert
  | ok charged =>
    -- With gas at hand the frame is started and ended at once.
    refine Inert.bind ?_ fun _ => (untraced_pure _).inert
    unfold applyInstruction
    refine untraced_store.inert.bind fun s => ?_
    simp only
    cases nextNonce? (s.nonce instruction.sender) with
    | none => exact (untraced_throw _).inert
    | some next =>
      refine (untraced_change _).inert.bind fun _ => (untraced_change _).inert.bind fun _ => ?_
      refine (untraced_attempt _).inert.bind fun _ => (untraced_change _).inert.bind fun _ => ?_
      exact (inert_traceStart _).bind fun _ => (inert_traceEnd _).bind fun _ =>
        (untraced_note _).inert

/-- A call is the same with a trace or without. -/
theorem inert_runCall (h : executor.IgnoresTrace) (context : ExecutionContext) (message : Message)
    (meter : GasMeter) : Inert (runCall executor context message meter) := by
  unfold runCall
  refine (untraced_change _).inert.bind fun _ => (inert_traceStart _).bind fun _ => ?_
  -- The number of the snapshot comes from the store, so it is the same whether a trace is kept or not.
  refine untraced_snapshot.inert.bind fun snapshot => ?_
  refine (untraced_runInside h _ _ _).inert.bind fun inner => ?_
  refine (untraced_concludeCall snapshot inner).inert.bind fun ran => ?_
  exact (inert_traceEnd _).bind fun _ => (untraced_pure ran).inert

/-- A message is the same with a trace or without, since each of its parts is. -/
theorem inert_applyMessage (h : executor.IgnoresTrace) (config : ChainConfig)
    (context : ExecutionContext) (message : Message) :
    Inert (applyMessage config executor context message) := by
  unfold applyMessage
  refine untraced_store.inert.bind fun s => (untraced_liftExcept _).inert.bind fun cost => ?_
  refine (untraced_attempt _).inert.bind fun _ => (untraced_charge _ _).inert.bind fun meter => ?_
  refine (untraced_instruction? message).inert.bind fun instruction => ?_
  -- Whether it is a mint or a call does not depend on the trace either.
  cases instruction with
  | some instruction =>
    exact (inert_runInstruction context meter instruction).bind fun ran =>
      (untraced_closeMessage config context message true ran).inert
  | none =>
    exact (inert_runCall h context message meter).bind fun ran =>
      (untraced_closeMessage config context message false ran).inert

/-! ## What is recorded -/

/-- A start and the next end, with nothing recorded in between, are one frame. -/
theorem frames_of_start_end {trace trace₁ trace₂ : Option CallTrace} {start : CallStart}
    {ending : CallEnd} (hstart : trace₁ = trace.map (·.start start))
    (hend : trace₂ = trace₁.map (·.finish ending)) :
    trace₂.map CallTrace.frames = trace.map (·.frames ++ [⟨start, some ending⟩]) := by
  subst hstart hend
  cases trace with
  | none => rfl
  | some trace => exact congrArg some (trace.frames_start_finish start ending)

/-- Carrying out an instruction adds one finished frame, which used no gas of its own. -/
theorem applyInstruction_frames {context : ExecutionContext} {instruction : Instruction}
    {gas : UInt64} (h : runOn (applyInstruction context instruction gas) w = (.ok (), w')) :
    w'.trace.map CallTrace.frames = w.trace.map (·.frames ++
      [⟨{ sender := instruction.sender, recipient := MintContract.address, isCreation := false
          input := instruction.payload, gas, value := 0 },
        some { output := [], gasUsed := 0, failure := none }⟩]) := by
  obtain ⟨next, u, w₁, w₂, -, -, hstart, hend, rfl⟩ := applyInstruction_steps h
  have hstart' := trace_of_traceStart hstart
  rw [World.trace_withStore] at hstart'
  rw [World.trace_withLedger]
  exact frames_of_start_end hstart' (trace_of_traceEnd hend)

/-- A call adds one finished frame, with the gas that it was given and that it used. -/
theorem runCall_frames (hexecutor : executor.IgnoresTrace) {context : ExecutionContext}
    {message : Message} {meter : GasMeter} {ran : Ran}
    (h : runOn (runCall executor context message meter) w = (.ok ran, w')) :
    w'.trace.map CallTrace.frames = w.trace.map (·.frames ++
      [⟨{ sender := message.sender, recipient := message.recipient.getD .zero
          isCreation := message.isCreation, input := message.data, gas := meter.remaining
          value := message.value },
        some { output := ran.output, gasUsed := meter.remaining - ran.meter.remaining
               failure := ran.failure.map CallError.message }⟩]) := by
  obtain ⟨inner, w₁, w₂, w₃, hstart, hinside, hconclude, hend⟩ := runCall_steps h
  have hstart' := trace_of_traceStart hstart
  have hinside' := (untraced_runInside hexecutor context message meter).trace_of_run hinside
  rw [World.trace_withStore] at hstart' hinside'
  -- Nothing inside the call is recorded, so its end finds the frame of its start.
  have hkept : w₃.trace = w₁.trace :=
    ((untraced_concludeCall _ inner).trace_of_run hconclude).trans hinside'
  refine frames_of_start_end hstart' ?_
  rw [← hkept]
  exact trace_of_traceEnd hend

/-- An instruction that takes effect is recorded, one for which the gas does not suffice is not. -/
theorem runInstruction_frames {context : ExecutionContext} {meter : GasMeter}
    {instruction : Instruction} {ran : Ran}
    (h : runOn (runInstruction context meter instruction) w = (.ok ran, w')) :
    w'.trace.map CallTrace.frames = w.trace.map (·.frames ++
      if ran.failure.isNone then
        [⟨{ sender := instruction.sender, recipient := MintContract.address, isCreation := false
            input := instruction.payload, gas := meter.remaining, value := 0 },
          some { output := [], gasUsed := 0, failure := none }⟩]
      else []) ∧
    (ran.failure.isNone = false → ∃ used, ran.failure = some (.outOfGas used meter.limit)) := by
  unfold runInstruction at h
  split at h
  · next cause hcharge =>
    obtain ⟨used, rfl⟩ := GasMeter.exists_of_charge_error hcharge
    rw [runOn_bind_of_ok (runOn_store w), runOn_bind_of_ok (runOn_change _ _)] at h
    obtain ⟨rfl, rfl⟩ := pure_ok.mp h
    -- Only the nonce has changed, and no frame was started.
    refine ⟨?_, fun _ => ⟨used, rfl⟩⟩
    simp only [Option.isNone_some, Bool.false_eq_true, if_false, List.append_nil]
    rfl
  · next charged hcharge =>
    obtain ⟨⟨⟩, v, happlied, h⟩ := bind_ok.mp h
    obtain ⟨rfl, rfl⟩ := pure_ok.mp h
    exact ⟨applyInstruction_frames happlied, nofun⟩

/-! ## The whole message -/

/-- What a message that is carried out adds to the trace.  The gas that it is said to have, and to have used,
is what is left of the limit and of the outcome's gas once the message itself is paid for. -/
theorem applyMessage_frames (hexecutor : executor.IgnoresTrace) {config : ChainConfig}
    {context : ExecutionContext} {message : Message} {outcome : Outcome}
    (h : runOn (applyMessage config executor context message) w = (.ok outcome, w')) :
    message.intrinsicGas context.schedule ≤ message.gasLimit ∧
    message.intrinsicGas context.schedule ≤ outcome.gasUsed ∧
    (outcome.minted = true → outcome.failure.isNone = false →
      ∃ used, outcome.failure = some (.outOfGas used message.gasLimit)) ∧
    w'.trace.map CallTrace.frames =
      w.trace.map (·.frames ++ message.tracedFrames context.schedule outcome) := by
  obtain ⟨cost, s, meter, v₀, v, ran, -, -, hcharge, hread, -, hran, hclose⟩ := applyMessage_steps h
  -- Nothing is recorded before the message runs and after it.
  have hbefore := (untraced_instruction? message).trace_of_run hread
  rw [World.trace_withStore] at hbefore
  have hafter := (untraced_closeMessage config context message _ ran).trace_of_run hclose
  obtain ⟨-, rfl⟩ := closeMessage_ok hclose
  obtain ⟨-, hspends⟩ := runMessage_ok hran
  have hwithin := (GasMeter.within_start message.gasLimit).charge hcharge
  obtain ⟨hwithin', hle⟩ := hspends.countsOn _ hwithin
  obtain ⟨hlimit, hfits⟩ := id hwithin
  -- When the message starts to run, only its intrinsic gas is used.
  have hused : meter.used = message.intrinsicGas context.schedule := by
    rw [GasMeter.eq_of_charge_start hcharge]
  have hremaining : meter.remaining = message.gasLimit - message.intrinsicGas context.schedule := by
    rw [GasMeter.remaining, hlimit, hused]
  refine ⟨hused ▸ hfits, hused ▸ hle, ?_⟩
  rw [hafter, ← hbefore]
  cases hmint : message.mintIn? v₀.store with
  | some instruction =>
    rw [hmint] at hran
    obtain ⟨-, -, hrenders⟩ := readable_of_mintIn? hmint
    obtain ⟨hframes, hgas⟩ := runInstruction_frames hran
    rw [hrenders.sender_eq, hrenders.payload_eq, hremaining] at hframes
    rw [hlimit] at hgas
    exact ⟨fun _ => hgas, hframes⟩
  | none =>
    rw [hmint] at hran
    have hframes := runCall_frames hexecutor hran
    rw [hwithin.remaining_sub hwithin', hused, hremaining] at hframes
    exact ⟨fun hminted => absurd hminted Bool.false_ne_true, hframes⟩

/-- A trace is complete and makes no difference.  With it and without it a message has the same result and
leaves the same store and the same memory, whatever the trace holds, calls that have not ended among them.
A message that is carried out adds exactly its own frame at the end: that of the call, or of the instruction
if it takes effect, and none for an instruction that runs out of gas. -/
theorem applyMessage_traced (hexecutor : executor.IgnoresTrace) (config : ChainConfig)
    (context : ExecutionContext) (message : Message) (w : World σ) (trace : CallTrace) :
    let plain := runOn (applyMessage config executor context message) (w.withTrace none)
    let traced := runOn (applyMessage config executor context message) (w.withTrace (some trace))
    traced.1 = plain.1 ∧ traced.2.store = plain.2.store ∧ traced.2.memory = plain.2.memory ∧
    ∀ outcome, traced.1 = .ok outcome →
      message.intrinsicGas context.schedule ≤ message.gasLimit ∧
      message.intrinsicGas context.schedule ≤ outcome.gasUsed ∧
      (outcome.minted = true → outcome.failure.isNone = false →
        ∃ used, outcome.failure = some (.outOfGas used message.gasLimit)) ∧
      ∃ trace', traced.2.trace = some trace' ∧
        trace'.frames = trace.frames ++ message.tracedFrames context.schedule outcome := by
  intro plain traced
  obtain ⟨hresult, hstore, hmemory⟩ := inert_applyMessage hexecutor config context message
    (w.withTrace (some trace)) (w.withTrace none) (w.alike_withTrace _ _)
  refine ⟨hresult, hstore, hmemory, fun outcome houtcome => ?_⟩
  obtain ⟨hlimit, hused, hmint, hframes⟩ :=
    applyMessage_frames hexecutor (runOn_eq_of_fst houtcome)
  exact ⟨hlimit, hused, hmint, Option.map_eq_some_iff.mp hframes⟩

/-- A store with funds and with code at account 9. -/
def payingStore : Store :=
  (Store.withBalances [(.ofNat 7, 1000000)]).setCode (.ofNat 9) [0x60]

/-- A script that is told to have run out of gas, although it reports to have used less than there was. -/
def exhaustedScripts : List (Address × Executor.Script) :=
  [(.ofNat 9, ⟨[.setNonce (.ofNat 9) 1], .failed (.outOfGas 9001 9000) 50⟩)]

/-- A call of an earlier message that was refused while it ran. -/
def unfinishedFrame : CallFrame :=
  ⟨⟨.ofNat 1, .ofNat 2, false, [], 5, 0⟩, none⟩

/-- A call of that code after the refused one. -/
def exhaustedRun : Except LedgerError Outcome × World (List Executor.ScriptedCall) :=
  runOn (applyMessage .mainnet (.scripted exhaustedScripts) (.ofBlock (.simple 1 (.ofNat 8)))
      (.call (.ofNat 7) (.ofNat 9) 0 30000 2))
    ((World.ofStore payingStore []).withTrace (some ⟨[unfinishedFrame]⟩))

/-- The unfinished frame stays, and the exhausted call is recorded behind it with all its gas used. -/
theorem applyMessage_traced_exhausted :
    exhaustedRun.1 = .ok ⟨30000, some (.outOfGas 9001 9000), [], false⟩ ∧
      ∃ trace, exhaustedRun.2.trace = some trace ∧ trace.frames =
        [unfinishedFrame, ⟨⟨.ofNat 7, .ofNat 9, false, [], 9000, 0⟩,
          some ⟨[], 9000, some "Out of gas: used 9001, limit 9000"⟩⟩] := by
  obtain ⟨-, -, -, hframes⟩ := applyMessage_traced (Executor.ignoresTrace_scripted exhaustedScripts)
    .mainnet (.ofBlock (.simple 1 (.ofNat 8))) (.call (.ofNat 7) (.ofNat 9) 0 30000 2)
    (.ofStore payingStore []) ⟨[unfinishedFrame]⟩
  have hresult : exhaustedRun.1 = .ok ⟨30000, some (.outOfGas 9001 9000), [], false⟩ := rfl
  obtain ⟨-, -, -, trace, htrace, hadded⟩ := hframes _ hresult
  refine ⟨hresult, trace, htrace, hadded.trans ?_⟩
  decide

end Step

end BridgeMint
