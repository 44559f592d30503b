import BridgeMint.Proofs.Execution.Refusal
import BridgeMint.Proofs.Transition.Message

/-!
# What messages are refused for

The parts of a message are refused for want of funds or gas, for balances that do not fit, or for a nonce
without successor; a call, also when its snapshot is gone.  None of these errors is about the block that the
message is part of.
-/

namespace BridgeMint

namespace LedgerError

/-- The property holds of every error that the parts of a message give, that a snapshot is gone excepted. -/
structure CoversParts (P : LedgerError → Prop) : Prop where
  nonceExhausted : ∀ a n, P (.nonceExhausted a n)
  store : ∀ cause, (∀ id, cause ≠ .unknownSnapshot id) → P (.store cause)
  call : ∀ cause, P (.call cause)

/-- The error is about a message, and not about the block it is part of or the chain. -/
def OfMessage : LedgerError → Prop
  | .blockLimitAboveChain .. | .blockGasExceeded .. | .fork _ => False
  | _ => True

/-- Whatever refuses a part of a message is about the message. -/
theorem coversParts_ofMessage : CoversParts OfMessage :=
  ⟨fun _ _ => trivial, fun _ _ => trivial, fun _ => trivial⟩

end LedgerError

namespace Step

variable {σ : Type} {P : LedgerError → Prop} {executor : Executor σ} {context : ExecutionContext}
  {message : Message}

/-! ## Parts of a message -/

/-- A credit is refused only for a balance that does not fit. -/
theorem refusedFor_addBalance (hP : LedgerError.CoversParts P) (a : Address) (amount : UInt256)
    (w : World σ) : RefusedFor P (attempt (·.addBalance a amount)) w := by
  apply refusedFor_attempt
  intro cause h
  unfold Store.addBalance at h
  split at h
  · cases h
    exact hP.store _ nofun
  · cases h

/-- A debit is refused only for want of funds. -/
theorem refusedFor_subBalance (hP : LedgerError.CoversParts P) (a : Address) (amount : UInt256)
    (w : World σ) : RefusedFor P (attempt (·.subBalance a amount)) w := by
  apply refusedFor_attempt
  intro cause h
  unfold Store.subBalance at h
  split at h
  · cases h
    exact hP.store _ nofun
  · cases h

/-- Carrying out an instruction is refused for the nonce or the credit, and for nothing else. -/
theorem refusedFor_applyInstruction (hP : LedgerError.CoversParts P) (context : ExecutionContext)
    (instruction : Instruction) (gas : UInt64) (w : World σ) :
    RefusedFor P (applyInstruction context instruction gas) w := by
  unfold applyInstruction
  refine RefusedFor.bind_of_ok (runOn_store w) ?_
  simp only
  -- The nonce is looked at first, and then the credit is the one thing that can be refused.
  cases nextNonce? (w.store.nonce instruction.sender) with
  | none => exact .of_error (runOn_throw _ w) (hP.nonceExhausted _ _)
  | some next =>
    refine RefusedFor.bind_of_ok (runOn_change _ w) ?_
    refine RefusedFor.bind_of_ok (runOn_change _ _) ?_
    refine (refusedFor_addBalance hP _ _ _).bind fun _ v _ => ?_
    refine RefusedFor.bind_of_ok (runOn_change _ v) ?_
    -- Tracing and giving notice are never refused.
    refine (refusedFor_traceStart _).bind fun _ _ _ => ?_
    exact (refusedFor_traceEnd _).bind fun _ u _ => .of_ok (runOn_note _ u)

/-- A mint is refused as its instruction is; one that is not paid for is an outcome and no refusal. -/
theorem refusedFor_runInstruction (hP : LedgerError.CoversParts P) (context : ExecutionContext)
    (meter : GasMeter) (instruction : Instruction) (w : World σ) :
    RefusedFor P (runInstruction context meter instruction) w := by
  unfold runInstruction
  cases meter.charge context.schedule.mint with
  | error cause => exact .of_ok rfl
  | ok charged =>
    exact (refusedFor_applyInstruction hP _ _ _ w).bind fun _ v _ => .of_ok (runOn_pure _ v)

/-- The inside of a call is refused for the value or the gas, never for what the code does. -/
theorem refusedFor_runInside (hP : LedgerError.CoversParts P) (executor : Executor σ)
    (context : ExecutionContext) (message : Message) (meter : GasMeter) (w : World σ) :
    RefusedFor P (runInside executor context message meter) w := by
  unfold runInside
  cases message.recipient with
  | none => exact .of_ok (runOn_pure _ w)
  | some recipient =>
    refine (refusedFor_subBalance hP _ _ w).bind fun _ v _ => ?_
    refine (refusedFor_addBalance hP _ _ v).bind fun _ v _ => ?_
    refine RefusedFor.bind_of_ok (runOn_store v) ?_
    cases (v.store.code recipient).isEmpty with
    | true => exact .of_ok (runOn_pure _ v)
    -- Whatever the executor answers is a result; only the gas it reports can be refused.
    | false =>
      refine RefusedFor.bind_of_ok (runOn_liftM _ v) ?_
      exact (refusedFor_charge fun cause _ => hP.call cause).bind fun _ v _ => .of_ok (runOn_pure _ v)

theorem refusedFor_closeMessage (hP : LedgerError.CoversParts P) (config : ChainConfig)
    (context : ExecutionContext) (message : Message) (minted : Bool) (ran : Ran) (w : World σ) :
    RefusedFor P (closeMessage config context message minted ran) w := by
  refine RefusedFor.bind ?_ fun _ v _ => .of_ok rfl
  exact (refusedFor_addBalance hP _ _ w).bind fun _ v _ => refusedFor_addBalance hP _ _ v

/-- A message is refused as its call is, or for what its other parts are refused for. -/
theorem refusedFor_applyMessage (hP : LedgerError.CoversParts P) (config : ChainConfig) {w : World σ}
    (happrove : ∀ e, message.approve context.schedule w.store = .error e → P e)
    (hcall : ∀ cost s (v : World σ) meter, w.store.subBalance message.sender cost = .ok s →
      v.store = s → RefusedFor P (runCall executor context message meter) v) :
    RefusedFor P (applyMessage config executor context message) w := by
  unfold applyMessage
  refine RefusedFor.bind_of_ok (runOn_store w) ?_
  cases hresult : message.approve context.schedule w.store with
  | error e =>
    have hrefused : runOn (liftM (Except.error e : Except LedgerError UInt256) : Step σ UInt256) w =
        (.error e, w) := runOn_liftExcept _ w
    exact (RefusedFor.of_error hrefused (happrove e hresult)).bind
      fun _ _ h => by rw [hrefused] at h; cases h
  | ok cost =>
    refine RefusedFor.bind_of_ok (runOn_liftExcept _ w) ?_
    -- Bought and charged, what is left is a mint or a call, and the settlement of either.
    refine (refusedFor_subBalance hP _ _ w).bind fun _ v₀ hbought => ?_
    obtain ⟨s, hbuy, rfl⟩ := attempt_ok.mp hbought
    refine (refusedFor_charge fun cause _ => hP.call cause).bind fun meter v₁ hcharged => ?_
    obtain ⟨-, rfl⟩ := charge_ok.mp hcharged
    obtain ⟨v₂, hread, hstore⟩ := exists_runOn_instruction? message (w.withStore s)
    refine RefusedFor.bind_of_ok hread ?_
    cases message.mintIn? (w.withStore s).store with
    | some instruction =>
      exact (refusedFor_runInstruction hP _ _ _ v₂).bind fun ran v _ =>
        refusedFor_closeMessage hP config context message true ran v
    | none =>
      exact (hcall cost s v₂ meter hbuy hstore).bind fun ran v _ =>
        refusedFor_closeMessage hP config context message false ran v

/-! ## Errors of messages -/

/-- Concluding a call is refused only because the snapshot to go back to is gone. -/
theorem refusedFor_concludeCall (id : Nat) (ran : Ran) (w : World σ) :
    RefusedFor LedgerError.OfMessage (concludeCall id ran) w := by
  unfold concludeCall
  split
  · exact .of_ok (runOn_pure _ w)
  · refine (refusedFor_revertTo fun _ _ => trivial).bind fun _ v _ => ?_
    split <;> exact .of_ok (runOn_pure _ v)

/-- A call is refused only for errors about its message. -/
theorem refusedFor_runCall (executor : Executor σ) (context : ExecutionContext) (message : Message)
    (meter : GasMeter) (w : World σ) :
    RefusedFor LedgerError.OfMessage (runCall executor context message meter) w := by
  unfold runCall
  refine RefusedFor.bind_of_ok (runOn_change _ w) ?_
  refine (refusedFor_traceStart _).bind fun _ v _ => RefusedFor.bind_of_ok (runOn_snapshot v) ?_
  refine (refusedFor_runInside LedgerError.coversParts_ofMessage _ _ _ _ _).bind fun inner u _ => ?_
  refine (refusedFor_concludeCall _ inner u).bind fun ran x _ => ?_
  exact (refusedFor_traceEnd _).bind fun _ y _ => .of_ok (runOn_pure _ y)

/-- A message is never refused for the block it is part of. -/
theorem ofMessage_of_applyMessage {config : ChainConfig} {w w' : World σ} {e : LedgerError}
    (h : runOn (applyMessage config executor context message) w = (.error e, w')) : e.OfMessage := by
  have hrefused : RefusedFor LedgerError.OfMessage (applyMessage config executor context message) w := by
    refine refusedFor_applyMessage LedgerError.coversParts_ofMessage config (fun e happrove => ?_)
      fun _ _ v meter _ _ => refusedFor_runCall executor context message meter v
    -- The checks at the start give one of the four reasons, and none names a block.
    have hrejected := message.rejection?_of_approve happrove
    unfold Message.rejection? at hrejected
    split_ifs at hrejected <;> cases hrejected <;> trivial
  exact hrefused e (congrArg Prod.fst h)

end Step

end BridgeMint
