import BridgeMint.Proofs.Execution.Parallel
import BridgeMint.Proofs.Transition.Message

/-!
# A message cannot tell how many snapshots there have been

Each part of a message runs in parallel to itself on a store with raised numbers.  The only number that
passes from one step to another is that of the snapshot a call is taken back to.
-/

namespace BridgeMint

/-- None of the four refusals names a snapshot. -/
theorem Message.unnumbered_of_approve {message : Message} {schedule : GasSchedule} {s : Store}
    {e : LedgerError} (h : message.approve schedule s = .error e) : e.Unnumbered := by
  have hrejected := message.rejection?_of_approve h
  unfold rejection? at hrejected
  split_ifs at hrejected <;> cases hrejected <;> nofun

namespace Step

variable {σ : Type} {d : Nat} {executor : Executor σ}
  {strategy : ExecutionContext → CallRequest → Strategy}

/-! ## Mint instructions -/

/-- Whether a message is an instruction has nothing to do with snapshots. -/
theorem parallel_instruction? (message : Message) :
    Parallel d id (instruction? message : Step σ (Option Instruction)) (instruction? message) := by
  intro w w' hw
  obtain ⟨v, hrun, hstore⟩ := exists_runOn_instruction? message w
  obtain ⟨v', hrun', hstore'⟩ := exists_runOn_instruction? message w'
  rw [hrun, hrun', hstore, hstore', hw]
  exact ⟨rfl, rfl⟩

/-- Carrying out an instruction opens none. -/
theorem parallel_applyInstruction (context : ExecutionContext) (instruction : Instruction)
    (gas : UInt64) :
    Parallel d id (applyInstruction context instruction gas : Step σ Unit)
      (applyInstruction context instruction gas) := by
  unfold applyInstruction
  refine parallel_store.bind fun s => ?_
  simp only [show (s.raise d).nonce instruction.sender = s.nonce instruction.sender from rfl]
  cases nextNonce? (s.nonce instruction.sender) with
  | none => exact parallel_throw id nofun
  | some next =>
    -- Every step of it runs in parallel, so their sequence does.
    refine (parallel_setWord _ _ _).bind fun _ => (parallel_setNonce _ _).bind fun _ => ?_
    refine (parallel_addBalance _ _).bind fun _ => (parallel_change fun _ => rfl).bind fun _ => ?_
    exact (parallel_traceStart _ _).bind fun _ => (parallel_traceEnd _ _).bind fun _ =>
      parallel_note _ _

/-- Running one comes to the same with raised numbers, whether the gas suffices or not. -/
theorem parallel_runInstruction (context : ExecutionContext) (meter : GasMeter)
    (instruction : Instruction) :
    Parallel d id (runInstruction context meter instruction : Step σ Ran)
      (runInstruction context meter instruction) := by
  unfold runInstruction
  cases meter.charge context.schedule.mint with
  | error cause =>
    exact parallel_store.bind fun s => (parallel_setNonce _ _).bind fun _ => parallel_pure id _
  | ok charged =>
    exact (parallel_applyInstruction _ _ _).bind fun _ => parallel_pure id _

/-! ## Calls -/

/-- The inside of a call runs in parallel if its executor counts from the first number it could open. -/
theorem parallel_runInside (h : executor.Follows strategy) (context : ExecutionContext)
    (message : Message) (meter : GasMeter) :
    Parallel d id (runInside executor context message meter)
      (runInside executor context message meter) := by
  unfold runInside
  cases message.recipient with
  | none => exact parallel_pure id _
  | some recipient =>
    refine (parallel_subBalance _ _).bind fun _ => (parallel_addBalance _ _).bind fun _ => ?_
    refine parallel_store.bind fun s => ?_
    -- Whether code runs depends on the recipient only.
    rw [show (s.raise d).code recipient = s.code recipient from rfl]
    cases (s.code recipient).isEmpty with
    | true => exact parallel_pure id _
    | false =>
      exact (parallel_executor h _ _).bind fun result =>
        (parallel_charge _ _).bind fun charged => parallel_pure id _

/-- A failed call is taken back to the snapshot with the raised number. -/
theorem parallel_concludeCall (snapshot : Nat) (ran : Ran) :
    Parallel d id (concludeCall snapshot ran : Step σ Ran) (concludeCall (snapshot + d) ran) := by
  unfold concludeCall
  cases ran.failure with
  | none => exact parallel_pure id ran
  | some cause =>
    refine (parallel_revertTo snapshot).bind fun _ => ?_
    cases cause <;> exact parallel_pure id _

/-- A call runs in parallel. -/
theorem parallel_runCall (h : executor.Follows strategy) (context : ExecutionContext)
    (message : Message) (meter : GasMeter) :
    Parallel d id (runCall executor context message meter) (runCall executor context message meter) := by
  unfold runCall
  refine (parallel_setNonce _ _).bind fun _ => (parallel_traceStart _ _).bind fun _ => ?_
  -- From here on the two runs hold different numbers of the same snapshot.
  refine parallel_snapshot.bind fun snapshot => (parallel_runInside h _ _ _).bind fun inner => ?_
  exact (parallel_concludeCall snapshot inner).bind fun ran =>
    (parallel_traceEnd _ _).bind fun _ => parallel_pure id ran

/-! ## Messages -/

theorem parallel_settleFees (receiver : Address) (message : Message) (meter : GasMeter) :
    Parallel d id (settleFees receiver message meter : Step σ Unit)
      (settleFees receiver message meter) :=
  (parallel_addBalance _ _).bind fun _ => parallel_addBalance _ _

/-- The checks decide alike. -/
theorem parallel_approve (message : Message) (schedule : GasSchedule) (s : Store) :
    Parallel d id (liftM (message.approve schedule s) : Step σ UInt256)
      (liftM (message.approve schedule (s.raise d))) := by
  intro w w' hw
  refine ⟨?_, hw⟩
  rw [runOn_liftExcept, runOn_liftExcept]
  -- The checks read a nonce and a balance, and neither has to do with snapshots.
  show message.approve schedule s = _
  cases happrove : message.approve schedule s with
  | error e =>
    have hsame := e.raise_of_unnumbered (Message.unnumbered_of_approve happrove) d
    exact congrArg Except.error hsame.symm
  | ok cost => rfl

theorem parallel_closeMessage (config : ChainConfig) (context : ExecutionContext) (message : Message)
    (minted : Bool) (ran : Ran) :
    Parallel d id (closeMessage config context message minted ran : Step σ Outcome)
      (closeMessage config context message minted ran) :=
  (parallel_settleFees _ _ _).bind fun _ => (parallel_note _ _).bind fun _ => parallel_pure id _

/-- A whole message gives the same outcome, and the same store but for the numbers. -/
theorem parallel_applyMessage (h : executor.Follows strategy) (config : ChainConfig)
    (context : ExecutionContext) (message : Message) :
    Parallel d id (applyMessage config executor context message)
      (applyMessage config executor context message) := by
  unfold applyMessage
  refine parallel_store.bind fun s => (parallel_approve _ _ s).bind fun cost => ?_
  refine (parallel_subBalance _ _).bind fun _ => (parallel_charge _ _).bind fun meter => ?_
  refine (parallel_instruction? message).bind fun instruction => ?_
  cases instruction with
  | some instruction =>
    exact (parallel_runInstruction context meter instruction).bind
      (parallel_closeMessage config context message true)
  | none =>
    exact (parallel_runCall h context message meter).bind
      (parallel_closeMessage config context message false)

end Step

end BridgeMint
