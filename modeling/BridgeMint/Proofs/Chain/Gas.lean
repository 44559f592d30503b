import BridgeMint.Proofs.Chain.Block
import BridgeMint.Proofs.Transition.Refusal

/-!
# The gas of messages and blocks

A message uses at least what it costs before anything runs and at most its gas limit, whatever its executor
reports.  A block lets a message run only if its whole gas limit is left, so the gas that was used never
exceeds the gas limit of the block: what is left can always be computed, and the sums are exact.
-/

namespace BridgeMint

/-! ## Accounts of gas -/

/-- The gas that receipts tell was used, in all. -/
def Receipt.totalGas (receipts : List Receipt) : Nat :=
  (receipts.map (·.gasUsed.toNat)).sum

theorem Receipt.totalGas_append (receipts receipts' : List Receipt) :
    totalGas (receipts ++ receipts') = totalGas receipts + totalGas receipts' := by
  simp [totalGas]

/-- The outcome accounts for the gas of the messages: each has a receipt in its place, which tells what it
used and what was used up to it. -/
structure BlockOutcome.Accounts (outcome : BlockOutcome) (messages : List Message) : Prop where
  length_eq : outcome.receipts.length = messages.length
  txIndex_eq : ∀ (i : Nat) (receipt : Receipt), outcome.receipts[i]? = some receipt →
    receipt.txIndex = .ofNat i
  gasUsed_within : ∀ (i : Nat) (receipt : Receipt) (message : Message),
    outcome.receipts[i]? = some receipt → messages[i]? = some message →
      message.intrinsicGas .standard ≤ receipt.gasUsed ∧ receipt.gasUsed ≤ message.gasLimit
  cumulative_eq : ∀ (i : Nat) (receipt : Receipt), outcome.receipts[i]? = some receipt →
    receipt.cumulativeGasUsed.toNat = Receipt.totalGas (outcome.receipts.take (i + 1))
  total_eq : outcome.gasUsed.toNat = Receipt.totalGas outcome.receipts

/-- Before the first message there is nothing to account for. -/
theorem BlockOutcome.accounts_start : start.Accounts [] := by
  have hnone : ∀ (i : Nat) (receipt : Receipt), start.receipts[i]? ≠ some receipt := by
    intro i receipt h
    simp [start] at h
  -- Every part speaks of a receipt in some place, and there is none.
  exact ⟨rfl, fun i r h => (hnone i r h).elim, fun i r _ h => (hnone i r h).elim,
    fun i r h => (hnone i r h).elim, rfl⟩

/-- One more receipt accounts for one more message. -/
theorem BlockOutcome.Accounts.push {outcome : BlockOutcome} {messages : List Message}
    (h : outcome.Accounts messages) {message : Message} {receipt : Receipt}
    (htxIndex : receipt.txIndex = .ofNat messages.length)
    (hwithin : message.intrinsicGas .standard ≤ receipt.gasUsed ∧ receipt.gasUsed ≤ message.gasLimit)
    (hcumulative : receipt.cumulativeGasUsed.toNat = outcome.gasUsed.toNat + receipt.gasUsed.toNat) :
    BlockOutcome.Accounts ⟨outcome.receipts ++ [receipt], receipt.cumulativeGasUsed⟩
      (messages ++ [message]) := by
  have htotal : receipt.cumulativeGasUsed.toNat = Receipt.totalGas (outcome.receipts ++ [receipt]) := by
    rw [hcumulative, h.total_eq, Receipt.totalGas_append]
    rfl
  -- A receipt is an earlier one, or the last.
  have hcases : ∀ (i : Nat) (r : Receipt), (outcome.receipts ++ [receipt])[i]? = some r →
      (i < messages.length ∧ outcome.receipts[i]? = some r) ∨ (i = messages.length ∧ r = receipt) := by
    intro i r hr
    rw [← h.length_eq]
    rcases Nat.lt_trichotomy i outcome.receipts.length with hlt | heq | hgt
    · rw [List.getElem?_append_left hlt] at hr
      exact .inl ⟨hlt, hr⟩
    · rw [heq, List.getElem?_concat_length] at hr
      exact .inr ⟨heq, (Option.some.inj hr).symm⟩
    · rw [List.getElem?_eq_none] at hr
      · cases hr
      · rw [List.length_append]
        exact hgt
  -- Each part holds of the earlier receipts as before, and of the last one as it was made.
  refine ⟨?_, ?_, ?_, ?_, htotal⟩
  · simp [h.length_eq]
  · intro i r hr
    rcases hcases i r hr with ⟨-, hold⟩ | ⟨rfl, rfl⟩
    · exact h.txIndex_eq i r hold
    · exact htxIndex
  · intro i r m hr hm
    rcases hcases i r hr with ⟨hlt, hold⟩ | ⟨rfl, rfl⟩
    · rw [List.getElem?_append_left hlt] at hm
      exact h.gasUsed_within i r m hold hm
    · rw [List.getElem?_concat_length] at hm
      cases hm
      exact hwithin
  · intro i r hr
    rcases hcases i r hr with ⟨hlt, hold⟩ | ⟨rfl, rfl⟩
    · -- The receipts up to an earlier place are the same with one more at the end.
      rw [h.cumulative_eq i r hold, List.take_append_of_le_length (by rw [h.length_eq]; exact hlt)]
    · rw [htotal, List.take_of_length_le]
      simp [h.length_eq]

/-- The receipts are numbered as the messages are. -/
theorem BlockOutcome.Accounts.txIndices {outcome : BlockOutcome} {messages : List Message}
    (h : outcome.Accounts messages) (hcount : messages.length < 2 ^ 32) :
    outcome.receipts.map (·.txIndex.toNat) = List.range messages.length := by
  refine List.ext_getElem (by simp [h.length_eq]) fun i hi hi' => ?_
  rw [List.length_map] at hi
  rw [List.length_range] at hi'
  -- Fewer messages than there are numbers of 32 bits, so the number of a place is the place itself.
  rw [List.getElem_map, List.getElem_range, h.txIndex_eq i _ (List.getElem?_eq_getElem hi)]
  exact UInt32.toNat_ofNat_of_lt (Nat.lt_trans hi' hcount)

namespace Step

variable {σ : Type} {w w' : World σ} {config : ChainConfig} {executor : Executor σ}

/-! ## Messages -/

/-- A message uses at least its intrinsic gas and at most its gas limit; one that ran out of gas uses all
of it. -/
theorem applyMessage_gas {context : ExecutionContext} {message : Message} {outcome : Outcome}
    (h : runOn (applyMessage config executor context message) w = (.ok outcome, w')) :
    message.intrinsicGas context.schedule ≤ outcome.gasUsed ∧ outcome.gasUsed ≤ message.gasLimit ∧
      ∀ used limit, outcome.failure = some (.outOfGas used limit) →
        outcome.gasUsed = message.gasLimit := by
  -- From the intrinsic gas on, every step only counts on, and running out counts up to the limit.
  obtain ⟨cost, meter, v₀, v, ran, u, -, -, hcharge, hran, -, -, rfl⟩ := applyMessage_course h
  obtain ⟨-, hspends⟩ := runMessage_ok hran
  have hmeter := (GasMeter.within_start message.gasLimit).charge hcharge
  obtain ⟨⟨hlimit, hused⟩, hle⟩ := hspends.countsOn _ hmeter
  -- The meter starts from nothing, so what was charged first is the intrinsic gas.
  have hintrinsic : meter.used.toNat = (message.intrinsicGas context.schedule).toNat := by
    rw [GasMeter.toNat_used_of_charge hcharge]
    exact Nat.zero_add _
  refine ⟨?_, hused, fun used limit hfailure => ?_⟩
  · rw [UInt64.le_iff_toNat_le, ← hintrinsic]
    exact UInt64.le_iff_toNat_le.mp hle
  · rw [← hlimit]
    exact hspends.exhausted used limit hfailure

/-- A message that asks for no more than a block has left does not take it over its limit. -/
theorem gasUsed_add_le {soFar limit : UInt64} {context : ExecutionContext} {message : Message}
    {outcome : Outcome} (hsoFar : soFar ≤ limit) (hasks : message.gasLimit ≤ limit - soFar)
    (h : runOn (applyMessage config executor context message) w = (.ok outcome, w')) :
    soFar.toNat + outcome.gasUsed.toNat ≤ limit.toNat := by
  obtain ⟨-, hused, -⟩ := applyMessage_gas h
  have hle := UInt64.le_iff_toNat_le.mp hsoFar
  have hle' := UInt64.le_iff_toNat_le.mp (UInt64.le_trans hused hasks)
  -- What is left is a true difference, because the block has not used more than its limit.
  rw [UInt64.toNat_sub_of_le _ _ hsoFar] at hle'
  omega

/-- The sum of such a message's gas and what the block used before does not wrap around. -/
theorem toNat_add_gasUsed {soFar limit : UInt64} {context : ExecutionContext} {message : Message}
    {outcome : Outcome} (hsoFar : soFar ≤ limit) (hasks : message.gasLimit ≤ limit - soFar)
    (h : runOn (applyMessage config executor context message) w = (.ok outcome, w')) :
    (soFar + outcome.gasUsed).toNat = soFar.toNat + outcome.gasUsed.toNat :=
  UInt64.toNat_add_of_lt (Nat.lt_of_le_of_lt (gasUsed_add_le hsoFar hasks h) limit.toNat_lt_size)

/-! ## The messages of a block -/

/-- One more message of a block keeps the accounts, and keeps within the limit of the block. -/
theorem processMessage_accounts {block : BlockHeader} {soFar next : BlockOutcome} {done : List Message}
    {message : Message} (hsoFar : soFar.Accounts done) (hlimit : soFar.gasUsed ≤ block.gasLimit)
    (h : runOn (processMessage config executor block soFar done.length message) w = (.ok next, w')) :
    next.Accounts (done ++ [message]) ∧ next.gasUsed ≤ block.gasLimit := by
  -- The message was let through, so its whole limit is left, and what it used is no more than that.
  obtain ⟨outcome, v, hasks, happlied, -, rfl⟩ := processMessage_ok h
  have hle := gasUsed_add_le hlimit hasks happlied
  have hsum := toNat_add_gasUsed hlimit hasks happlied
  obtain ⟨hintrinsic, hused, -⟩ := applyMessage_gas happlied
  refine ⟨hsoFar.push rfl ⟨hintrinsic, hused⟩ hsum, ?_⟩
  rw [UInt64.le_iff_toNat_le, hsum]
  exact hle

/-- So do any number of messages, from the place that the block has reached. -/
theorem processMessages_accounts {block : BlockHeader} {soFar outcome : BlockOutcome}
    {done messages : List Message} (hsoFar : soFar.Accounts done)
    (hlimit : soFar.gasUsed ≤ block.gasLimit)
    (h : runOn (processMessages config executor block soFar done.length messages) w =
      (.ok outcome, w')) :
    outcome.Accounts (done ++ messages) ∧ outcome.gasUsed ≤ block.gasLimit := by
  induction messages generalizing soFar done w with
  | nil =>
    obtain ⟨rfl, rfl⟩ := pure_ok.mp h
    rw [List.append_nil]
    exact ⟨hsoFar, hlimit⟩
  | cons message messages ih =>
    unfold processMessages at h
    obtain ⟨next, v, hfirst, hrest⟩ := bind_ok.mp h
    obtain ⟨hnext, hlimit'⟩ := processMessage_accounts hsoFar hlimit hfirst
    -- With that message done, the place of the next one is again how many are done.
    have hplace : done.length + 1 = (done ++ [message]).length := by simp
    rw [hplace] at hrest
    have hall := ih hnext hlimit' hrest
    rw [List.append_assoc] at hall
    exact hall

/-- Once the first messages have been carried out, the others run from where those ended. -/
theorem runOn_processMessages_append {block : BlockHeader} {soFar next : BlockOutcome} {index : Nat}
    {earlier later : List Message} {v : World σ}
    (h : runOn (processMessages config executor block soFar index earlier) w = (.ok next, v)) :
    runOn (processMessages config executor block soFar index (earlier ++ later)) w =
      runOn (processMessages config executor block next (index + earlier.length) later) v := by
  induction earlier generalizing soFar index w with
  | nil =>
    obtain ⟨rfl, rfl⟩ := pure_ok.mp h
    rfl
  | cons message earlier ih =>
    unfold processMessages at h
    obtain ⟨mid, u, hfirst, hrest⟩ := bind_ok.mp h
    rw [List.cons_append, processMessages, runOn_bind_of_ok hfirst, ih hrest, List.length_cons]
    -- Only the place of the next message is counted in another way.
    congr 2
    omega

/-! ## Messages that a block has no gas for -/

/-- A message that asks for more gas than is left is refused before it changes anything. -/
theorem runOn_processMessage_of_lt {block : BlockHeader} {soFar : BlockOutcome} {message : Message}
    (executor : Executor σ) (index : Nat) (h : block.gasLimit - soFar.gasUsed < message.gasLimit) :
    runOn (processMessage config executor block soFar index message) w =
      (.error (.blockGasExceeded (UInt64.saturatingAdd soFar.gasUsed message.gasLimit)
        block.gasLimit), w) := by
  unfold processMessage
  simp only
  rw [if_pos h]
  exact runOn_bind_of_error (runOn_throw _ w)

/-- No message is refused for the gas of its block but for that. -/
theorem lt_of_processMessage {block : BlockHeader} {soFar : BlockOutcome} {index : Nat}
    {message : Message} {used limit : UInt64}
    (h : (runOn (processMessage config executor block soFar index message) w).1 =
      .error (.blockGasExceeded used limit)) : block.gasLimit - soFar.gasUsed < message.gasLimit := by
  -- With enough gas left the message is applied, and none of its own errors is that of a block.
  by_contra hge
  unfold processMessage at h
  simp only at h
  rw [if_neg hge, runOn_bind_of_ok (runOn_change _ _)] at h
  cases hrun : runOn (applyMessage config executor (.ofBlock block) message)
      (w.withStore (w.store.selectTx (.ofNat index))) with
  | mk result v =>
    cases result with
    | ok outcome =>
      rw [runOn_bind_of_ok hrun] at h
      cases h
    | error e =>
      rw [runOn_bind_of_error hrun] at h
      obtain rfl : e = .blockGasExceeded used limit := Except.error.inj h
      exact (ofMessage_of_applyMessage hrun).elim

/-- If messages are refused for the gas of their block, all before a certain one were carried out, and that
one asks for more than they left. -/
theorem exists_beyond_of_processMessages {block : BlockHeader} {soFar : BlockOutcome} {index : Nat}
    {messages : List Message} {used limit : UInt64}
    (h : (runOn (processMessages config executor block soFar index messages) w).1 =
      .error (.blockGasExceeded used limit)) :
    ∃ (earlier : List Message) (message : Message) (later : List Message) (next : BlockOutcome)
      (v : World σ), messages = earlier ++ message :: later ∧
      runOn (processMessages config executor block soFar index earlier) w = (.ok next, v) ∧
      block.gasLimit - next.gasUsed < message.gasLimit := by
  induction messages generalizing soFar index w with
  | nil => cases h
  | cons message messages ih =>
    unfold processMessages at h
    cases hrun : runOn (processMessage config executor block soFar index message) w with
    | mk result v =>
      cases result with
      | ok next =>
        -- The first message was carried out, so it is one of the rest.
        rw [runOn_bind_of_ok hrun] at h
        obtain ⟨earlier, beyond, later, last, u, rfl, hearlier, hlt⟩ := ih h
        refine ⟨message :: earlier, beyond, later, last, u, rfl, ?_, hlt⟩
        rw [processMessages, runOn_bind_of_ok hrun, hearlier]
      | error e =>
        -- It was refused, so none comes before it, and it is the one that asks for too much.
        rw [runOn_bind_of_error hrun] at h
        have hfirst : (runOn (processMessage config executor block soFar index message) w).1 =
            .error (.blockGasExceeded used limit) := by
          rw [hrun]
          exact h
        exact ⟨[], message, messages, soFar, w, rfl, rfl, lt_of_processMessage hfirst⟩

/-! ## The whole block -/

section Block

variable {registry : MigrationRegistry} {header : BlockHeader} {source : String}

/-- A block that is carried out accounts for the gas of all its messages, within its limit. -/
theorem processBlock_accounts {messages : List Message} {outcome : BlockOutcome}
    (h : runOn (processBlock config registry executor ⟨header, messages⟩ source) w = (.ok outcome, w')) :
    outcome.Accounts messages ∧ outcome.gasUsed ≤ header.gasLimit := by
  obtain ⟨-, u, hmessages, -⟩ := processBlock_open h
  have hnone : BlockOutcome.start.gasUsed ≤ header.gasLimit := UInt64.le_iff_toNat_le.mpr (Nat.zero_le _)
  have haccounts := processMessages_accounts BlockOutcome.accounts_start hnone hmessages
  exact haccounts

/-- The first message that asks for more gas than those before it left has its block refused, and leaves
everything as they left it. -/
theorem processBlock_of_lt {earlier : List Message} {soFar : BlockOutcome}
    (h : runOn (processBlock config registry executor ⟨header, earlier⟩ source) w = (.ok soFar, w'))
    {message : Message} (later : List Message) (hlt : header.gasLimit - soFar.gasUsed < message.gasLimit) :
    ∃ v, runOn (processBlock config registry executor ⟨header, earlier ++ message :: later⟩ source) w =
        (.error (.blockGasExceeded (UInt64.saturatingAdd soFar.gasUsed message.gasLimit)
          header.gasLimit), v) ∧
      v.store = w'.store ∧ v.memory = w'.memory := by
  obtain ⟨hlimit, u, hearlier, hstore, hmemory⟩ := processBlock_open h
  -- Both blocks start in the same world, so they come to the same before that message.
  obtain ⟨hresult', hstore', hmemory'⟩ := runOn_processBlock_open config registry executor
    ⟨header, earlier ++ message :: later⟩ source w hlimit
  -- The earlier messages run as they did alone, and the next one is refused where they ended.
  simp only [runOn_processMessages_append hearlier, processMessages] at hresult' hstore' hmemory'
  rw [runOn_bind_of_error (runOn_processMessage_of_lt executor _ hlt)] at hresult' hstore' hmemory'
  exact ⟨_, runOn_eq_of_fst hresult', hstore'.trans hstore.symm, hmemory'.trans hmemory.symm⟩

/-- A block is refused for its gas only for such a message. -/
theorem exists_beyond_of_processBlock {messages : List Message} {used limit : UInt64}
    (h : (runOn (processBlock config registry executor ⟨header, messages⟩ source) w).1 =
      .error (.blockGasExceeded used limit)) :
    ∃ (earlier : List Message) (message : Message) (later : List Message) (soFar : BlockOutcome)
      (v : World σ), messages = earlier ++ message :: later ∧
      runOn (processBlock config registry executor ⟨header, earlier⟩ source) w = (.ok soFar, v) ∧
      header.gasLimit - soFar.gasUsed < message.gasLimit := by
  by_cases hlimit : header.gasLimit ≤ config.gasLimit
  · obtain ⟨hresult, -, -⟩ := runOn_processBlock_open config registry executor
      ⟨header, messages⟩ source w hlimit
    rw [h] at hresult
    obtain ⟨earlier, message, later, soFar, u, hsplit, hearlier, hlt⟩ :=
      exists_beyond_of_processMessages hresult.symm
    -- The messages before it are a block as well, and that one is carried out.
    obtain ⟨haccepted, -, -⟩ := runOn_processBlock_open config registry executor
      ⟨header, earlier⟩ source w hlimit
    rw [hearlier] at haccepted
    exact ⟨earlier, message, later, soFar, _, hsplit, runOn_eq_of_fst haccepted, hlt⟩
  · rw [runOn_processBlock_of_limit registry executor source w (UInt64.not_le.mp hlimit)] at h
    cases h

end Block

/-- Gas is accounted for exactly, in messages and in blocks.  A message uses between what it costs before
anything runs and its limit, and all of that if it runs out.  The receipts of a block tell sums that are
exact and stay within its limit; so the gas that is left is never less than nothing, and a message that it
suffices for cannot take the sum over the limit.  The first message that asks for more than is left has the
block refused before it touches anything, and nothing else has a block refused for its gas. -/
theorem gas_accounting (config : ChainConfig) (registry : MigrationRegistry) (executor : Executor σ) :
    (∀ (context : ExecutionContext) (message : Message) (w w' : World σ) (outcome : Outcome),
      runOn (applyMessage config executor context message) w = (.ok outcome, w') →
        message.intrinsicGas context.schedule ≤ outcome.gasUsed ∧
        outcome.gasUsed ≤ message.gasLimit ∧
        ∀ used limit, outcome.failure = some (.outOfGas used limit) →
          outcome.gasUsed = message.gasLimit) ∧
    (∀ (header : BlockHeader) (messages : List Message) (source : String) (w w' : World σ)
      (outcome : BlockOutcome), messages.length < 2 ^ 32 →
      runOn (processBlock config registry executor ⟨header, messages⟩ source) w = (.ok outcome, w') →
        outcome.receipts.map (·.txIndex.toNat) = List.range messages.length ∧
        (∀ (i : Nat) (receipt : Receipt), outcome.receipts[i]? = some receipt →
          receipt.cumulativeGasUsed.toNat = Receipt.totalGas (outcome.receipts.take (i + 1))) ∧
        Receipt.totalGas outcome.receipts = outcome.gasUsed.toNat ∧
        outcome.gasUsed ≤ header.gasLimit ∧ header.gasLimit ≤ config.gasLimit) ∧
    (∀ (header : BlockHeader) (earlier : List Message) (source : String) (w v : World σ)
      (soFar : BlockOutcome),
      runOn (processBlock config registry executor ⟨header, earlier⟩ source) w = (.ok soFar, v) →
        (header.gasLimit - soFar.gasUsed).toNat + soFar.gasUsed.toNat = header.gasLimit.toNat ∧
        ∀ message : Message,
          (message.gasLimit ≤ header.gasLimit - soFar.gasUsed →
            ∀ (context : ExecutionContext) (u u' : World σ) (outcome : Outcome),
              runOn (applyMessage config executor context message) u = (.ok outcome, u') →
                (soFar.gasUsed + outcome.gasUsed).toNat =
                  soFar.gasUsed.toNat + outcome.gasUsed.toNat) ∧
          (header.gasLimit - soFar.gasUsed < message.gasLimit → ∀ later, ∃ v',
            runOn (processBlock config registry executor ⟨header, earlier ++ message :: later⟩ source) w =
              (.error (.blockGasExceeded (UInt64.saturatingAdd soFar.gasUsed message.gasLimit)
                header.gasLimit), v') ∧
            v'.store = v.store ∧ v'.memory = v.memory)) ∧
    (∀ (header : BlockHeader) (messages : List Message) (source : String) (w : World σ)
      (used limit : UInt64),
      (runOn (processBlock config registry executor ⟨header, messages⟩ source) w).1 =
          .error (.blockGasExceeded used limit) →
        ∃ (earlier : List Message) (message : Message) (later : List Message) (soFar : BlockOutcome)
          (v : World σ), messages = earlier ++ message :: later ∧
          runOn (processBlock config registry executor ⟨header, earlier⟩ source) w = (.ok soFar, v) ∧
          header.gasLimit - soFar.gasUsed < message.gasLimit) := by
  -- A single message, and the reason of a refusal, are settled by themselves; the accounts of a block and
  -- what it has left go through those of its messages.
  refine ⟨fun context message w w' outcome h => applyMessage_gas h, ?_, ?_,
    fun header messages source w used limit h => exists_beyond_of_processBlock h⟩
  · intro header messages source w w' outcome hcount h
    -- Places are numbered in 32 bits, hence the bound on how many messages there are.
    obtain ⟨haccounts, hwithin⟩ := processBlock_accounts h
    obtain ⟨hlimit, -⟩ := processBlock_open h
    exact ⟨haccounts.txIndices hcount, haccounts.cumulative_eq, haccounts.total_eq.symm, hwithin, hlimit⟩
  · intro header earlier source w v soFar h
    -- The accounts of what was carried out bound it, so the difference to the limit is a true one.
    obtain ⟨-, hwithin⟩ := processBlock_accounts h
    have hwithin' := UInt64.le_iff_toNat_le.mp hwithin
    refine ⟨?_, fun message => ⟨fun hasks context u u' outcome happlied => ?_, fun hlt later => ?_⟩⟩
    · rw [UInt64.toNat_sub_of_le _ _ hwithin]
      exact Nat.sub_add_cancel hwithin'
    · -- A message that asks for no more than is left, in whatever world it is tried.
      exact toNat_add_gasUsed hwithin hasks happlied
    · -- The first message that asks for more.
      exact processBlock_of_lt h later hlt

/-- An account with code, and another one that can pay. -/
def greedyStore : Store :=
  (Store.withBalances [(.ofNat 7, .ofNat 1000000)]).after [.setCode (.ofNat 9) [0]]

/-- Code that tells it used more gas than there is. -/
def greedyScripts : List (Address × Executor.Script) :=
  [(.ofNat 9, ⟨[], .success [] 0xffffffffffffffff⟩)]

/-- A block of 60000 gas. -/
def greedyRun (messages : List Message) :
    Except LedgerError BlockOutcome × World (List Executor.ScriptedCall) :=
  runOn (processBlock .mainnet .empty (.scripted greedyScripts)
    ⟨(BlockHeader.simple 1 (.ofNat 8)).withGasLimit 60000, messages⟩ "import") (.ofStore greedyStore [])

/-- The code is called, and an account without code; they leave 14000. -/
def greedyMessages : List Message :=
  [.call (.ofNat 7) (.ofNat 9) 0 25000 1, .call (.ofNat 7) (.ofNat 10) 1 30000 1]

/-- One message more, which asks for 22000, has the block refused. -/
theorem gas_accounting_greedy :
    ∃ soFar v v', greedyRun greedyMessages = (.ok soFar, v) ∧
      soFar.receipts.map (·.cumulativeGasUsed) = [25000, 46000] ∧
      Receipt.totalGas soFar.receipts = 46000 ∧
      greedyRun (greedyMessages ++ [.call (.ofNat 7) (.ofNat 10) 2 22000 1]) =
        (.error (.blockGasExceeded 68000 60000), v') ∧ v'.store = v.store := by
  have hreceipts : (greedyRun greedyMessages).1.toOption.map
      (fun outcome => (outcome.gasUsed, outcome.receipts.map (·.cumulativeGasUsed))) =
        some (46000, [25000, 46000]) := by decide +kernel
  cases hresult : (greedyRun greedyMessages).1 with
  | error cause =>
    rw [hresult] at hreceipts
    cases hreceipts
  | ok soFar =>
    rw [hresult] at hreceipts
    obtain ⟨hused, hcumulative⟩ := Prod.mk.inj (Option.some.inj hreceipts)
    have hrun := runOn_eq_of_fst hresult
    -- The receipts are read off by running the two messages; the refusal of the third follows.
    obtain ⟨-, hblock, hnext, -⟩ := gas_accounting .mainnet .empty (.scripted greedyScripts)
    obtain ⟨-, -, htotal, -⟩ := hblock _ _ _ _ _ _ (by decide) hrun
    obtain ⟨-, hmessage⟩ := hnext _ _ _ _ _ _ hrun
    obtain ⟨-, hrefused⟩ := hmessage (.call (.ofNat 7) (.ofNat 10) 2 22000 1)
    obtain ⟨v', hv', hstore, -⟩ := hrefused (by rw [hused]; decide) []
    refine ⟨soFar, _, v', hrun, hcumulative, ?_, ?_, hstore⟩
    · rw [htotal, hused]
      rfl
    · rw [hused] at hv'
      exact hv'

end Step

end BridgeMint
