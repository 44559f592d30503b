import BridgeMint.Proofs.Execution.Executor
import BridgeMint.Proofs.Execution.Step
import BridgeMint.Proofs.Gas
import BridgeMint.Transition

/-!
# How a call runs

The store after a call is one of few: that in which the value has been moved, that which the code left,
or that to which a failed call was taken back.  These are the cases that everything else about calls is
derived from.
-/

namespace BridgeMint

namespace Step

variable {σ : Type} {w w' : World σ}

/-! ## The inside of a call -/

/-- The value of a message has been moved to its recipient. -/
def ValueMoved (message : Message) (s t : Store) : Prop :=
  ∃ recipient u, message.recipient = some recipient ∧
    s.subBalance message.sender message.value = .ok u ∧
    u.addBalance recipient message.value = .ok t

/-- How the inside of a call may end: whether it succeeded, and the store it left. -/
inductive CallBody (executor : Executor σ) (context : ExecutionContext) (message : Message)
    (s : Store) : Bool → Store → Prop where
  /-- A contract cannot be created. -/
  | creation : message.recipient = none → CallBody executor context message s false s
  /-- The recipient has no code. -/
  | transfer {t : Store} : ValueMoved message s t → CallBody executor context message s true t
  /-- The recipient's code ran. -/
  | code {v : World σ} (request : CallRequest) : ValueMoved message s v.store →
      CallBody executor context message s (executor.answer context request v).1.succeeded
        (executor.answer context request v).2.store

/-- A call counts as failed if the executor says so. -/
theorem isNone_judge (result : CallResult) : (judge result).1.isNone = result.succeeded := by
  unfold judge
  cases result.succeeded <;> rfl

/-- The value is moved first, whatever the recipient is; the recipient's code runs after that, if there is
any.  The executor runs whatever the meter says, which is charged afterwards. -/
theorem runCode_cases {executor : Executor σ} {context : ExecutionContext} {message : Message}
    {recipient : Address} {meter : GasMeter} {ran : Ran} (hrecipient : message.recipient = some recipient)
    (h : runOn (runCode executor context message recipient meter) w = (.ok ran, w')) :
    ∃ v, ValueMoved message w.store v.store ∧
      ((v.store.code recipient).isEmpty = true ∧ ran = ⟨meter, none, []⟩ ∧ w' = v ∨
        (v.store.code recipient).isEmpty = false ∧ ∃ request charged,
          meter.charge (min (executor.answer context request v).1.gasUsed meter.remaining) =
              .ok charged ∧
            ran = ⟨charged, (judge (executor.answer context request v).1).1,
              (judge (executor.answer context request v).1).2⟩ ∧
            w' = (executor.answer context request v).2) := by
  unfold runCode at h
  obtain ⟨⟨⟩, w₁, htaken, h⟩ := bind_ok.mp h
  obtain ⟨u, hsub, rfl⟩ := attempt_ok.mp htaken
  obtain ⟨⟨⟩, w₂, hgiven, h⟩ := bind_ok.mp h
  obtain ⟨t, hadd, rfl⟩ := attempt_ok.mp hgiven
  refine ⟨(w.withStore u).withStore t, ⟨recipient, u, hrecipient, hsub, hadd⟩, ?_⟩
  rw [runOn_bind_of_ok (runOn_store _)] at h
  -- Whether code runs is looked up after the value has been moved.
  split at h
  · next hempty =>
    obtain ⟨rfl, rfl⟩ := pure_ok.mp h
    exact .inl ⟨hempty, rfl, rfl⟩
  · next hcoded =>
    rw [runOn_bind_of_ok (runOn_liftM _ _)] at h
    obtain ⟨charged, w₃, hcharged, h⟩ := bind_ok.mp h
    obtain ⟨hcharge, rfl⟩ := charge_ok.mp hcharged
    obtain ⟨rfl, rfl⟩ := pure_ok.mp h
    exact .inr ⟨Bool.eq_false_iff.mpr hcoded,
      ⟨message.sender, recipient, message.data, message.value, meter.remaining⟩, charged, hcharge,
      rfl, rfl⟩

/-- What running code comes to, for the store and the meter. -/
theorem runCode_ok {executor : Executor σ} {context : ExecutionContext} {message : Message}
    {recipient : Address} {meter : GasMeter} {ran : Ran} (hrecipient : message.recipient = some recipient)
    (h : runOn (runCode executor context message recipient meter) w = (.ok ran, w')) :
    CallBody executor context message w.store ran.failure.isNone w'.store ∧
      meter.CountsOn ran.meter := by
  obtain ⟨v, hmoved, hran⟩ := runCode_cases hrecipient h
  rcases hran with ⟨-, rfl, rfl⟩ | ⟨-, request, charged, hcharge, rfl, rfl⟩
  · exact ⟨.transfer hmoved, .refl _⟩
  · have hbody : CallBody executor context message w.store _ _ := .code request hmoved
    rw [← isNone_judge] at hbody
    exact ⟨hbody, .charge hcharge⟩

/-- What the inside of a call comes to, with or without a recipient. -/
theorem runInside_ok {executor : Executor σ} {context : ExecutionContext} {message : Message}
    {meter : GasMeter} {ran : Ran}
    (h : runOn (runInside executor context message meter) w = (.ok ran, w')) :
    CallBody executor context message w.store ran.failure.isNone w'.store ∧
      meter.CountsOn ran.meter := by
  unfold runInside at h
  split at h
  · next recipient hrecipient => exact runCode_ok hrecipient h
  · -- Without a recipient a contract is to be created, which fails before anything is moved.
    next hrecipient =>
    obtain ⟨rfl, rfl⟩ := pure_ok.mp h
    exact ⟨.creation hrecipient, .refl _⟩

/-! ## The whole call -/

/-- What running makes of the meter it was given: the meter counts on, and running out of gas uses it
up. -/
structure Ran.Spends (ran : Ran) (meter : GasMeter) : Prop where
  countsOn : meter.CountsOn ran.meter
  exhausted : ∀ used limit, ran.failure = some (.outOfGas used limit) → ran.meter.used = ran.meter.limit

/-- What a run makes of a meter stays within the limit. -/
theorem Ran.Spends.within {ran : Ran} {meter : GasMeter} {limit : UInt64} (h : ran.Spends meter)
    (hmeter : meter.Within limit) : ran.meter.Within limit := by
  obtain ⟨hwithin, -⟩ := h.countsOn limit hmeter
  exact hwithin

/-- A call that succeeded keeps what was done, a call that failed is taken back. -/
theorem concludeCall_ok {id : Nat} {ran ran' : Ran}
    (h : runOn (concludeCall id ran) w = (.ok ran', w')) :
    (ran.failure.isNone = true → w'.store = w.store) ∧
      (ran.failure.isNone = false → w.store.revertTo id = .ok w'.store) ∧
      ran'.failure = ran.failure ∧ ran'.Spends ran.meter := by
  unfold concludeCall at h
  split at h
  · next hfailure =>
    obtain ⟨rfl, rfl⟩ := pure_ok.mp h
    -- Without a failure nothing is taken back, and the meter stays as it is.
    refine ⟨fun _ => rfl, ?_, rfl, .refl _, ?_⟩
    · intro hsome
      rw [hfailure] at hsome
      cases hsome
    · intro used limit hgas
      rw [hfailure] at hgas
      cases hgas
  · next cause hfailure =>
    obtain ⟨⟨⟩, v, htaken, h⟩ := bind_ok.mp h
    obtain ⟨s, hrevert, rfl⟩ := revertTo_ok.mp htaken
    have hnone : ran.failure.isNone = true → w'.store = w.store := by
      intro hnone
      rw [hfailure] at hnone
      cases hnone
    -- Some failures use up the gas, others keep what is left.
    split at h
    · obtain ⟨rfl, rfl⟩ := pure_ok.mp h
      exact ⟨hnone, fun _ => hrevert, rfl, .exhaust _, fun _ _ _ => rfl⟩
    · next hother =>
      obtain ⟨rfl, rfl⟩ := pure_ok.mp h
      refine ⟨hnone, fun _ => hrevert, rfl, .refl _, fun used limit hgas => ?_⟩
      rw [hfailure, Option.some.injEq] at hgas
      exact (hother used limit hgas).elim

/-- The store when the inside of a call starts: the nonce counts, and a snapshot is open. -/
def beforeCall (message : Message) (s : Store) : Nat × Store :=
  (s.setNonce message.sender (message.nonce + 1)).snapshot

/-- The steps of a call: between the start and the end that are recorded, its inside runs and is then kept or
taken back. -/
theorem runCall_steps {executor : Executor σ} {context : ExecutionContext} {message : Message}
    {meter : GasMeter} {ran : Ran}
    (h : runOn (runCall executor context message meter) w = (.ok ran, w')) :
    ∃ (inner : Ran) (w₁ w₂ w₃ : World σ),
      runOn (traceStart
          { sender := message.sender, recipient := message.recipient.getD .zero
            isCreation := message.isCreation, input := message.data, gas := meter.remaining
            value := message.value })
        (w.withStore (w.store.setNonce message.sender (message.nonce + 1))) = (.ok (), w₁) ∧
      runOn (runInside executor context message meter) (w₁.withStore w₁.store.snapshot.2) =
        (.ok inner, w₂) ∧
      runOn (concludeCall w₁.store.snapshot.1 inner) w₂ = (.ok ran, w₃) ∧
      runOn (traceEnd
          { output := ran.output, gasUsed := meter.remaining - ran.meter.remaining
            failure := ran.failure.map CallError.message }) w₃ = (.ok (), w') := by
  unfold runCall at h
  rw [runOn_bind_of_ok (runOn_change _ _)] at h
  obtain ⟨⟨⟩, w₁, hstart, h⟩ := bind_ok.mp h
  rw [runOn_bind_of_ok (runOn_snapshot _)] at h
  obtain ⟨inner, w₂, hinside, h⟩ := bind_ok.mp h
  obtain ⟨concluded, w₃, hconclude, h⟩ := bind_ok.mp h
  obtain ⟨⟨⟩, w₄, hend, h⟩ := bind_ok.mp h
  obtain ⟨rfl, rfl⟩ := pure_ok.mp h
  exact ⟨inner, w₁, w₂, w₃, hstart, hinside, hconclude, hend⟩

/-- The course of a call: its inside runs with the nonce counted and a snapshot open, and is then kept or
taken back. -/
theorem runCall_course {executor : Executor σ} {context : ExecutionContext} {message : Message}
    {meter : GasMeter} {ran : Ran}
    (h : runOn (runCall executor context message meter) w = (.ok ran, w')) :
    ∃ (inner : Ran) (v u x : World σ), v.store = (beforeCall message w.store).2 ∧
      runOn (runInside executor context message meter) v = (.ok inner, u) ∧
      runOn (concludeCall (beforeCall message w.store).1 inner) u = (.ok ran, x) ∧
      w'.store = x.store := by
  obtain ⟨inner, w₁, w₂, w₃, hstart, hinside, hconclude, hend⟩ := runCall_steps h
  -- The traces before and after leave the store alone.
  rw [store_of_traceStart hstart] at hinside hconclude
  exact ⟨inner, _, w₂, w₃, rfl, hinside, hconclude, store_of_traceEnd hend⟩

/-- The store after a call is the one that its inside left, or the one to which that was taken back. -/
theorem runCall_ok {executor : Executor σ} {context : ExecutionContext} {message : Message}
    {meter : GasMeter} {ran : Ran}
    (h : runOn (runCall executor context message meter) w = (.ok ran, w')) :
    (∃ u, CallBody executor context message (beforeCall message w.store).2 ran.failure.isNone u ∧
        (ran.failure.isNone = true → w'.store = u) ∧
        (ran.failure.isNone = false →
          u.revertTo (beforeCall message w.store).1 = .ok w'.store)) ∧
      ran.Spends meter := by
  obtain ⟨inner, v, u, x, hv, hinside, hconclude, hw'⟩ := runCall_course h
  obtain ⟨hbody, hmeter⟩ := runInside_ok hinside
  obtain ⟨hkept, htaken, hsame, hspends⟩ := concludeCall_ok hconclude
  -- Whether the call failed is the same before and after it is concluded.
  rw [hv, ← hsame] at hbody
  rw [← hsame] at hkept htaken
  rw [hw']
  exact ⟨⟨u.store, hbody, hkept, htaken⟩, hmeter.trans hspends.countsOn, hspends.exhausted⟩

end Step

end BridgeMint
