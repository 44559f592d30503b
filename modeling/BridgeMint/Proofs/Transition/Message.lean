import BridgeMint.Proofs.Mint.Instruction
import BridgeMint.Proofs.Transition.Approval
import BridgeMint.Proofs.Transition.Call

/-!
# How a message runs

A message that is accepted pays for its gas, runs in one of four ways, and is paid back what it did not
use.
-/

namespace BridgeMint

/-! ## Mint instructions -/

/-- The mint instruction that a message is in a store, if it is one. -/
def Message.mintIn? (message : Message) (s : Store) : Option Instruction :=
  message.recipient.bind fun recipient =>
    (Instruction.read s message.sender recipient message.data).toOption

namespace Step

variable {σ : Type} {w w' : World σ}

/-- Reading the instruction of a message leaves the store alone and answers what it is. -/
theorem exists_runOn_instruction? (message : Message) (w : World σ) :
    ∃ v, runOn (instruction? message) w = (.ok (message.mintIn? w.store), v) ∧
      v.store = w.store := by
  unfold instruction? Message.mintIn?
  cases message.recipient with
  | none => exact ⟨w, rfl, rfl⟩
  | some recipient => exact exists_runOn_readInstruction _ _ _ w

/-- A message that is an instruction goes to the contract, and its data is read as the instruction. -/
theorem readable_of_mintIn? {message : Message} {s : Store} {instruction : Instruction}
    (h : message.mintIn? s = some instruction) :
    message.recipient = some MintContract.address ∧
      Instruction.IsReadable s message.sender MintContract.address message.data ∧
      Instruction.Renders s message.sender message.data instruction := by
  unfold Message.mintIn? at h
  cases hrecipient : message.recipient with
  | none => simp [hrecipient] at h
  | some recipient =>
    rw [hrecipient, Option.bind_some] at h
    cases hread : Instruction.read s message.sender recipient message.data with
    | error rejection => simp [hread, Except.toOption] at h
    | ok i =>
      simp only [hread, Except.toOption, Option.some.injEq] at h
      subst h
      obtain ⟨hreadable, hrenders⟩ := Instruction.read_eq_ok hread
      -- Only what is sent to the contract is readable.
      obtain rfl := hreadable.receiver_eq
      exact ⟨rfl, hreadable, hrenders⟩

/-- A message that is an instruction is sent by its sender to the contract, which is there and has enough
left. -/
theorem mintIn?_eq_some {message : Message} {s : Store} {instruction : Instruction}
    (h : message.mintIn? s = some instruction) :
    instruction.sender = message.sender ∧ message.recipient = some MintContract.address ∧
      s.codeHash MintContract.address = MintContract.codeHash ∧
      s.mintLimit.checkedSub instruction.amount = some instruction.nextLimit := by
  obtain ⟨hrecipient, hreadable, hrenders⟩ := readable_of_mintIn? h
  refine ⟨hrenders.sender_eq, hrecipient, hreadable.installed, ?_⟩
  rw [UInt256.checkedSub_eq_some_iff, Store.mintLimit, UInt256.toNat_ofWord]
  exact hrenders.nextLimit_eq

/-- The store of a mint before the amount is credited. -/
def beforeMint (instruction : Instruction) (next : UInt64) (s : Store) : Store :=
  (s.setWord MintContract.address MintContract.limitSlot instruction.nextLimit.toWord).setNonce
    instruction.sender next

/-- The steps of an instruction that is carried out.  What comes after the log is seen in the trace and the
notices only. -/
theorem applyInstruction_steps {context : ExecutionContext} {instruction : Instruction} {gas : UInt64}
    (h : runOn (applyInstruction context instruction gas) w = (.ok (), w')) :
    ∃ (next : UInt64) (u : Store) (w₁ w₂ : World σ),
      nextNonce? (w.store.nonce instruction.sender) = some next ∧
      (beforeMint instruction next w.store).addBalance instruction.sender instruction.amount = .ok u ∧
      runOn (traceStart
          { sender := instruction.sender, recipient := MintContract.address, isCreation := false
            input := instruction.payload, gas, value := 0 })
        (w.withStore (u.addLog (instruction.log context.block.number))) = (.ok (), w₁) ∧
      runOn (traceEnd { output := [], gasUsed := 0, failure := none }) w₁ = (.ok (), w₂) ∧
      w' = w₂.withLedger (w₂.toLedger.note (.mintApplied instruction.sender instruction.amount
        instruction.nextLimit instruction.burn instruction.network)) := by
  unfold applyInstruction at h
  rw [runOn_bind_of_ok (runOn_store w)] at h
  simp only at h
  -- A nonce without a successor would have been refused.
  split at h
  · cases h
  · next next hnext =>
    rw [runOn_bind_of_ok (runOn_change _ _), runOn_bind_of_ok (runOn_change _ _)] at h
    obtain ⟨⟨⟩, w₀, hgiven, h⟩ := bind_ok.mp h
    obtain ⟨u, hadd, rfl⟩ := attempt_ok.mp hgiven
    rw [runOn_bind_of_ok (runOn_change _ _)] at h
    obtain ⟨⟨⟩, w₁, hstart, h⟩ := bind_ok.mp h
    obtain ⟨⟨⟩, w₂, hend, h⟩ := bind_ok.mp h
    rw [runOn_note] at h
    cases h
    exact ⟨next, u, w₁, w₂, hnext, hadd, hstart, hend, rfl⟩

/-- An instruction that is carried out credits its amount and leaves a log. -/
theorem applyInstruction_ok {context : ExecutionContext} {instruction : Instruction} {gas : UInt64}
    (h : runOn (applyInstruction context instruction gas) w = (.ok (), w')) :
    ∃ next u, nextNonce? (w.store.nonce instruction.sender) = some next ∧
      (beforeMint instruction next w.store).addBalance instruction.sender instruction.amount = .ok u ∧
      w'.store = u.addLog (instruction.log context.block.number) := by
  obtain ⟨next, u, w₁, w₂, hnext, hadd, hstart, hend, rfl⟩ := applyInstruction_steps h
  refine ⟨next, u, hnext, hadd, ?_⟩
  rw [World.store_withLedger]
  exact (store_of_traceEnd hend).trans (store_of_traceStart hstart)

/-- An instruction is carried out if its nonce has a successor and the amount can be credited. -/
theorem exists_runOn_applyInstruction_of_credit (context : ExecutionContext)
    {instruction : Instruction} (gas : UInt64) {next : UInt64} {u : Store}
    (hnext : nextNonce? (w.store.nonce instruction.sender) = some next)
    (hadd : (beforeMint instruction next w.store).addBalance instruction.sender instruction.amount =
      .ok u) : ∃ v, runOn (applyInstruction context instruction gas) w = (.ok (), v) := by
  unfold applyInstruction
  rw [runOn_bind_of_ok (runOn_store w)]
  simp only [hnext]
  rw [runOn_bind_of_ok (runOn_change _ _), runOn_bind_of_ok (runOn_change _ _)]
  generalize hv : (w.withStore (w.store.setWord MintContract.address MintContract.limitSlot
    instruction.nextLimit.toWord)).withStore _ = v
  have hstore : v.store = beforeMint instruction next w.store := by
    rw [← hv]
    rfl
  rw [← hstore] at hadd
  rw [runOn_bind_of_ok (attempt_ok.mpr ⟨u, hadd, rfl⟩), runOn_bind_of_ok (runOn_change _ _)]
  generalize World.withStore _ _ = v'
  -- The rest only traces and gives a notice.
  obtain ⟨w₁, hstart, -⟩ := exists_runOn_traceStart
    { sender := instruction.sender, recipient := MintContract.address, isCreation := false
      input := instruction.payload, gas, value := 0 } v'
  obtain ⟨w₂, hend, -⟩ := exists_runOn_traceEnd { output := [], gasUsed := 0, failure := none } w₁
  rw [runOn_bind_of_ok hstart, runOn_bind_of_ok hend]
  exact ⟨_, runOn_note _ _⟩

/-! ## The four ways a message runs

What is proved of a message later on is proved of each of these ways.  Aliasing of the accounts involved
plays no part in the split, since the ways are told apart by what is done and not by whom it is done to.
-/

/-- How an accepted message may run once it has paid for its gas: whether it succeeded, and the store
it left. -/
inductive Body (executor : Executor σ) (context : ExecutionContext) (message : Message) (s : Store) :
    Bool → Store → Prop where
  /-- A mint for which there was not enough gas. -/
  | unpaidMint {instruction : Instruction} : message.mintIn? s = some instruction →
      Body executor context message s false
        (s.setNonce instruction.sender (s.nonce instruction.sender + 1))
  | mint {instruction : Instruction} {next : UInt64} {u : Store} :
      message.mintIn? s = some instruction → nextNonce? (s.nonce instruction.sender) = some next →
      (beforeMint instruction next s).addBalance instruction.sender instruction.amount = .ok u →
      Body executor context message s true (u.addLog (instruction.log context.block.number))
  | call {u : Store} : CallBody executor context message (beforeCall message s).2 true u →
      Body executor context message s true u
  /-- A call that failed and was taken back. -/
  | failedCall {u t : Store} : CallBody executor context message (beforeCall message s).2 false u →
      u.revertTo (beforeCall message s).1 = .ok t → Body executor context message s false t

/-- Without enough gas for an instruction only the nonce is counted; otherwise it is carried out. -/
theorem runInstruction_cases {context : ExecutionContext} {meter : GasMeter}
    {instruction : Instruction} {ran : Ran}
    (h : runOn (runInstruction context meter instruction) w = (.ok ran, w')) :
    (∃ cause, meter.charge context.schedule.mint = .error cause ∧
        ran = ⟨meter.exhaust, some cause, []⟩ ∧
        w'.store = w.store.setNonce instruction.sender (w.store.nonce instruction.sender + 1)) ∨
      ∃ charged next u, meter.charge context.schedule.mint = .ok charged ∧
        ran = ⟨charged, none, []⟩ ∧ nextNonce? (w.store.nonce instruction.sender) = some next ∧
        (beforeMint instruction next w.store).addBalance instruction.sender instruction.amount =
          .ok u ∧
        w'.store = u.addLog (instruction.log context.block.number) := by
  unfold runInstruction at h
  split at h
  · next cause hcharge =>
    rw [runOn_bind_of_ok (runOn_store w), runOn_bind_of_ok (runOn_change _ _)] at h
    obtain ⟨rfl, rfl⟩ := pure_ok.mp h
    exact .inl ⟨cause, hcharge, rfl, rfl⟩
  · next charged hcharge =>
    obtain ⟨⟨⟩, v, happlied, h⟩ := bind_ok.mp h
    obtain ⟨next, u, hnext, hadd, hstore⟩ := applyInstruction_ok happlied
    obtain ⟨rfl, rfl⟩ := pure_ok.mp h
    exact .inr ⟨charged, next, u, hcharge, rfl, hnext, hadd, hstore⟩

/-- An instruction runs in the first two ways. -/
theorem runInstruction_ok {executor : Executor σ} {context : ExecutionContext} {message : Message}
    {meter : GasMeter} {instruction : Instruction} {ran : Ran}
    (hmint : message.mintIn? w.store = some instruction)
    (h : runOn (runInstruction context meter instruction) w = (.ok ran, w')) :
    Body executor context message w.store ran.failure.isNone w'.store ∧
      ran.Spends meter := by
  rcases runInstruction_cases h with
    ⟨cause, -, rfl, hstore⟩ | ⟨charged, next, u, hcharge, rfl, hnext, hadd, hstore⟩
  · -- The gas does not suffice, and the meter is used up.
    rw [hstore]
    exact ⟨.unpaidMint hmint, .exhaust _, fun _ _ _ => rfl⟩
  · -- The gas suffices, and the instruction takes effect.
    rw [hstore]
    exact ⟨.mint hmint hnext hadd, .charge hcharge, nofun⟩

/-- A call runs in the other two. -/
theorem runCall_body {executor : Executor σ} {context : ExecutionContext} {message : Message}
    {meter : GasMeter} {ran : Ran}
    (h : runOn (runCall executor context message meter) w = (.ok ran, w')) :
    Body executor context message w.store ran.failure.isNone w'.store ∧
      ran.Spends meter := by
  obtain ⟨⟨u, hbody, hkept, htaken⟩, hspends⟩ := runCall_ok h
  refine ⟨?_, hspends⟩
  -- Whether the call succeeded is what its result says.
  cases hfailure : ran.failure.isNone with
  | true =>
    rw [hfailure] at hbody
    rw [hkept hfailure]
    exact .call hbody
  | false =>
    rw [hfailure] at hbody
    exact .failedCall hbody (htaken hfailure)

/-! ## The whole message -/

/-- Runs an accepted message, which is an instruction or a call. -/
def runMessage (executor : Executor σ) (context : ExecutionContext) (message : Message)
    (meter : GasMeter) : Option Instruction → Step σ Ran
  | some instruction => runInstruction context meter instruction
  | none => runCall executor context message meter

/-- What is done once a message has run. -/
def closeMessage (config : ChainConfig) (context : ExecutionContext) (message : Message)
    (minted : Bool) (ran : Ran) : Step σ Outcome := do
  settleFees (config.feeReceiver context.block) message ran.meter
  note (.messageApplied message.sender message.nonce ran.meter.used minted ran.failure.isSome)
  return { gasUsed := ran.meter.used, failure := ran.failure, output := ran.output, minted }

/-- Once a message has paid for its gas, it runs and is closed. -/
theorem runOn_applyMessage (config : ChainConfig) (executor : Executor σ)
    {context : ExecutionContext} {message : Message} {cost : UInt256} {s : Store} {meter : GasMeter}
    (happrove : message.approve context.schedule w.store = .ok cost)
    (hbuy : w.store.subBalance message.sender cost = .ok s)
    (hcharge : (GasMeter.start message.gasLimit).charge (message.intrinsicGas context.schedule) =
      .ok meter) :
    ∃ v : World σ, v.store = s ∧ runOn (applyMessage config executor context message) w =
      runOn (runMessage executor context message meter (message.mintIn? s) >>=
        closeMessage config context message (message.mintIn? s).isSome) v := by
  have hbought : runOn (attempt (·.subBalance message.sender cost)) w = (.ok (), w.withStore s) :=
    attempt_ok.mpr ⟨s, hbuy, rfl⟩
  have hcharged : runOn (charge (.start message.gasLimit) (message.intrinsicGas context.schedule))
      (w.withStore s) = (.ok meter, w.withStore s) := charge_ok.mpr ⟨hcharge, rfl⟩
  -- Reading the data may give a notice, so the world is another one.
  obtain ⟨v, hread, hstore⟩ := exists_runOn_instruction? message (w.withStore s)
  rw [World.store_withStore] at hread hstore
  refine ⟨v, hstore, ?_⟩
  unfold applyMessage
  rw [runOn_bind_of_ok (runOn_store w), happrove, runOn_bind_of_ok (runOn_liftExcept _ _),
    runOn_bind_of_ok hbought, runOn_bind_of_ok hcharged, runOn_bind_of_ok hread]
  cases message.mintIn? s <;> rfl

/-- Every accepted message runs in one of the four ways. -/
theorem runMessage_ok {executor : Executor σ} {context : ExecutionContext} {message : Message}
    {meter : GasMeter} {ran : Ran}
    (h : runOn (runMessage executor context message meter (message.mintIn? w.store)) w =
      (.ok ran, w')) :
    Body executor context message w.store ran.failure.isNone w'.store ∧
      ran.Spends meter := by
  cases hmint : message.mintIn? w.store with
  | some instruction =>
    rw [hmint] at h
    exact runInstruction_ok hmint h
  | none =>
    rw [hmint] at h
    exact runCall_body h

/-- The sender is paid back first, and the receiver of the fees is paid then. -/
theorem settleFees_ok {receiver : Address} {message : Message} {meter : GasMeter}
    (h : runOn (settleFees receiver message meter) w = (.ok (), w')) :
    ∃ u, w.store.addBalance message.sender (UInt256.ofUInt64 meter.remaining * message.gasPrice) =
        .ok u ∧
      u.addBalance receiver (UInt256.ofUInt64 meter.used * message.gasPrice) = .ok w'.store := by
  unfold settleFees at h
  obtain ⟨⟨⟩, w₁, hback, h⟩ := bind_ok.mp h
  obtain ⟨u, hrefund, rfl⟩ := attempt_ok.mp hback
  obtain ⟨t, hfee, rfl⟩ := attempt_ok.mp h
  exact ⟨u, hrefund, hfee⟩

/-- A message is closed by paying back what it did not use and handing over the rest. -/
theorem closeMessage_ok {config : ChainConfig} {context : ExecutionContext} {message : Message}
    {minted : Bool} {ran : Ran} {outcome : Outcome}
    (h : runOn (closeMessage config context message minted ran) w = (.ok outcome, w')) :
    (∃ u, w.store.addBalance message.sender
          (UInt256.ofUInt64 ran.meter.remaining * message.gasPrice) = .ok u ∧
        u.addBalance (config.feeReceiver context.block)
          (UInt256.ofUInt64 ran.meter.used * message.gasPrice) = .ok w'.store) ∧
      outcome =
        { gasUsed := ran.meter.used, failure := ran.failure, output := ran.output, minted } := by
  unfold closeMessage at h
  obtain ⟨⟨⟩, v, hsettle, h⟩ := bind_ok.mp h
  rw [runOn_bind_of_ok (runOn_note _ _)] at h
  obtain ⟨rfl, rfl⟩ := pure_ok.mp h
  obtain ⟨u, hrefund, hfee⟩ := settleFees_ok hsettle
  exact ⟨⟨u, hrefund, hfee⟩, rfl⟩

/-- The steps of a message that is carried out. -/
theorem applyMessage_steps {config : ChainConfig} {executor : Executor σ}
    {context : ExecutionContext} {message : Message} {outcome : Outcome}
    (h : runOn (applyMessage config executor context message) w = (.ok outcome, w')) :
    ∃ (cost : UInt256) (s : Store) (meter : GasMeter) (v₀ v : World σ) (ran : Ran),
      message.approve context.schedule w.store = .ok cost ∧
      w.store.subBalance message.sender cost = .ok s ∧
      (GasMeter.start message.gasLimit).charge (message.intrinsicGas context.schedule) =
        .ok meter ∧
      runOn (instruction? message) (w.withStore s) = (.ok (message.mintIn? v₀.store), v₀) ∧
      v₀.store = s ∧
      runOn (runMessage executor context message meter (message.mintIn? v₀.store)) v₀ =
        (.ok ran, v) ∧
      runOn (closeMessage config context message (message.mintIn? v₀.store).isSome ran) v =
        (.ok outcome, w') := by
  unfold applyMessage at h
  rw [runOn_bind_of_ok (runOn_store w)] at h
  obtain ⟨cost, w₀, happrove, h⟩ := bind_ok.mp h
  rw [runOn_liftExcept, Prod.mk.injEq] at happrove
  -- The checks only read.
  obtain ⟨happrove, rfl⟩ := happrove
  obtain ⟨⟨⟩, w₁, hbought, h⟩ := bind_ok.mp h
  obtain ⟨s, hbuy, rfl⟩ := attempt_ok.mp hbought
  obtain ⟨meter, w₂, hcharged, h⟩ := bind_ok.mp h
  obtain ⟨hcharge, rfl⟩ := charge_ok.mp hcharged
  obtain ⟨v₀, hread, hstore⟩ := exists_runOn_instruction? message (w.withStore s)
  rw [World.store_withStore] at hread hstore
  rw [runOn_bind_of_ok hread] at h
  -- Whichever way the message runs, it is closed in the same way.
  have hrun : runOn (runMessage executor context message meter (message.mintIn? s) >>=
      closeMessage config context message (message.mintIn? s).isSome) v₀ = (.ok outcome, w') := by
    rw [← h]
    cases message.mintIn? s <;> rfl
  obtain ⟨ran, v, hran, hclose⟩ := bind_ok.mp hrun
  subst hstore
  exact ⟨cost, _, meter, v₀, v, ran, happrove, hbuy, hcharge, hread, rfl, hran, hclose⟩

/-- The course of a message that is carried out: it is found acceptable, pays for its gas limit, runs, and
is paid back what it did not use. -/
theorem applyMessage_course {config : ChainConfig} {executor : Executor σ}
    {context : ExecutionContext} {message : Message} {outcome : Outcome}
    (h : runOn (applyMessage config executor context message) w = (.ok outcome, w')) :
    ∃ (cost : UInt256) (meter : GasMeter) (v₀ v : World σ) (ran : Ran) (u : Store),
      message.approve context.schedule w.store = .ok cost ∧
      w.store.subBalance message.sender cost = .ok v₀.store ∧
      (GasMeter.start message.gasLimit).charge (message.intrinsicGas context.schedule) =
        .ok meter ∧
      runOn (runMessage executor context message meter (message.mintIn? v₀.store)) v₀ =
        (.ok ran, v) ∧
      v.store.addBalance message.sender (UInt256.ofUInt64 ran.meter.remaining * message.gasPrice) =
        .ok u ∧
      u.addBalance (config.feeReceiver context.block)
        (UInt256.ofUInt64 ran.meter.used * message.gasPrice) = .ok w'.store ∧
      outcome = { gasUsed := ran.meter.used, failure := ran.failure, output := ran.output
                  minted := (message.mintIn? v₀.store).isSome } := by
  obtain ⟨cost, s, meter, v₀, v, ran, happrove, hbuy, hcharge, -, rfl, hran, hclose⟩ :=
    applyMessage_steps h
  obtain ⟨⟨u, hrefund, hfee⟩, houtcome⟩ := closeMessage_ok hclose
  exact ⟨cost, meter, v₀, v, ran, u, happrove, hbuy, hcharge, hran, hrefund, hfee, houtcome⟩

/-- A message that is carried out was found acceptable, paid for its gas limit, ran in one of the four
ways, and was paid back. -/
theorem applyMessage_ok {config : ChainConfig} {executor : Executor σ} {context : ExecutionContext}
    {message : Message} {outcome : Outcome}
    (h : runOn (applyMessage config executor context message) w = (.ok outcome, w')) :
    ∃ (cost : UInt256) (s t u : Store) (meter : GasMeter),
      message.approve context.schedule w.store = .ok cost ∧
      w.store.subBalance message.sender cost = .ok s ∧
      Body executor context message s outcome.failure.isNone t ∧
      meter.Within message.gasLimit ∧
      t.addBalance message.sender (UInt256.ofUInt64 meter.remaining * message.gasPrice) = .ok u ∧
      u.addBalance (config.feeReceiver context.block)
        (UInt256.ofUInt64 meter.used * message.gasPrice) = .ok w'.store := by
  obtain ⟨cost, meter, v₀, v, ran, u, happrove, hbuy, hcharge, hran, hrefund, hfee, rfl⟩ :=
    applyMessage_course h
  obtain ⟨hbody, hspends⟩ := runMessage_ok hran
  have hmeter := (GasMeter.within_start message.gasLimit).charge hcharge
  exact ⟨cost, v₀.store, v.store, u, ran.meter, happrove, hbuy, hbody, hspends.within hmeter, hrefund, hfee⟩

end Step

end BridgeMint
