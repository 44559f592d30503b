import BridgeMint.Proofs.Chain.Block
import BridgeMint.Proofs.Store.Effects
import BridgeMint.Proofs.Store.Placement

/-!
# The logs of a block

The receipts of a block hold its logs and nothing else: each log stands in the receipt of the message that
announced it, in the place that it carries.  Failed messages leave no logs, and the logs of earlier blocks
have no part in any of this.
-/

namespace BridgeMint

/-- The executor uses only operations that the journal can take back, goes back only to snapshots that it took
itself, and stays with the transaction it was called for. -/
def Executor.StaysInTx {σ : Type} (executor : Executor σ) : Prop :=
  executor.Confined fun s op => op.IsJournaled s.nextSnapshot ∧ op.KeepsTx

/-- Such an executor is a journaled one. -/
theorem Executor.StaysInTx.journaled {σ : Type} {executor : Executor σ} (h : executor.StaysInTx) :
    executor.Journaled := by
  intro context request w hw
  obtain ⟨ops, hops, hstore⟩ := h context request w hw
  refine ⟨ops, fun op hop => ?_, hstore⟩
  obtain ⟨hjournaled, -⟩ := hops op hop
  exact hjournaled

/-- The logs of a receipt belong to its transaction, and a failed message has none. -/
def Receipt.HoldsOwnLogs (receipt : Receipt) : Prop :=
  (∀ log ∈ receipt.logs, log.txIndex = receipt.txIndex) ∧
    (receipt.succeeded = false → receipt.logs = [])

namespace Step

variable {σ : Type} {executor : Executor σ} {context : ExecutionContext} {message : Message}

/-! ## Messages -/

theorem CallBody.logging {s t : Store} {b : Bool} (h : CallBody executor context message s b t)
    (he : executor.StaysInTx) (hs : s.Reachable) : s.Logging t := by
  obtain ⟨ops, rfl, hops⟩ := h.exists_program he hs
    (fun _ _ => ⟨⟨trivial, trivial⟩, ⟨trivial, trivial⟩⟩) (fun v op hv hallowed => hv ▸ hallowed)
  exact (Store.Logging.refl hs.sound).after hs.sound hops

/-- Whichever way a message runs, it adds logs of its own transaction in their places; if it fails, it adds
none. -/
theorem Body.logsAdded {s t : Store} {b : Bool} (h : Body executor context message s b t)
    (he : executor.StaysInTx) (hs : s.Reachable) :
    t.txIndex = s.txIndex ∧ ∃ new, Store.LogsAdded s t new ∧ (b = false → new = []) := by
  -- Counting the nonce and opening a snapshot leave the logs and the transaction alone.
  have hlogs : (beforeCall message s).2.logs = s.logs :=
    Store.logs_setNonce s message.sender (message.nonce + 1)
  have htx : (beforeCall message s).2.txIndex = s.txIndex :=
    Store.txIndex_write s message.sender (.nonce (message.nonce + 1))
  cases h with
  | unpaidMint _ =>
    rw [Store.setNonce_eq_write]
    exact ⟨Store.txIndex_write s _ _, [], .of_logs_eq (Store.logs_write s _ _), fun _ => rfl⟩
  | @mint instruction next u _ _ hadd =>
    have hcredited := Store.addBalance_written hadd
    obtain ⟨hlogs', htx'⟩ := logs_beforeMint instruction next s
    have hsame : u.txIndex = s.txIndex := hcredited.txIndex_eq.trans htx'
    have hnone : Store.LogsAdded s u [] := .of_logs_eq (hcredited.logs_eq.trans hlogs')
    exact ⟨hsame, _, hnone.addLog hsame _, nofun⟩
  | call hbody =>
    obtain ⟨-, hsame, new, hnew⟩ := hbody.logging he (beforeCall_reachable message hs)
    rw [Store.LogsAdded, hlogs, htx] at hnew
    exact ⟨hsame.trans htx, new, hnew, nofun⟩
  | failedCall hbody hrevert =>
    -- A failed call is taken back, its logs with everything else.
    have hagree := failedCall_agree hbody he.journaled hs hrevert
    have hbefore := hbody.logging he (beforeCall_reachable message hs)
    refine ⟨?_, [], .of_logs_eq ?_, fun _ => rfl⟩
    · obtain ⟨hkept, -⟩ := Store.revertTo_rest hrevert
      rw [hkept, hbefore.txIndex_eq, htx]
    · rw [hagree.logs, Store.logs_setNonce]

/-- A message adds logs of its own transaction in their places, and none if it fails. -/
theorem applyMessage_logsAdded {config : ChainConfig} {outcome : Outcome} {w w' : World σ}
    (hw : w.store.Reachable) (he : executor.StaysInTx)
    (h : runOn (applyMessage config executor context message) w = (.ok outcome, w')) :
    ∃ new, Store.LogsAdded w.store w'.store new ∧ (outcome.succeeded = false → new = []) := by
  obtain ⟨cost, s, t, u, meter, -, hbuy, hbody, -, hrefund, hfee⟩ := applyMessage_ok h
  have hbought := Store.subBalance_written hbuy
  have hclosing := (Store.addBalance_written hrefund).trans (Store.addBalance_written hfee)
  obtain ⟨-, new, hnew, hfailed⟩ := hbody.logsAdded he (hw.subBalance hbuy)
  refine ⟨new, ?_, hfailed⟩
  -- Paying for gas leaves the logs and the transaction alone.
  rw [Store.LogsAdded, hbought.logs_eq, hbought.txIndex_eq] at hnew
  rw [Store.LogsAdded, hclosing.logs_eq]
  exact hnew

/-! ## The messages of a block -/

variable {w w' : World σ} {config : ChainConfig}

/-- The receipt of a message holds the logs that it added, which go on from those before. -/
theorem processMessage_logs {block : BlockHeader} {soFar next : BlockOutcome} {index : Nat}
    {message : Message} (he : executor.StaysInTx) (hw : BeforeMessage index w.store)
    (hindex : index < 2 ^ 32)
    (h : runOn (processMessage config executor block soFar index message) w = (.ok next, w')) :
    ∃ receipt, next.receipts = soFar.receipts ++ [receipt] ∧ receipt.HoldsOwnLogs ∧
      w'.store.logs = w.store.logs ++ receipt.logs ∧
      Log.NumberedFrom w.store.logs.length receipt.logs ∧ BeforeMessage (index + 1) w'.store := by
  obtain ⟨outcome, v, -, happlied, hstore, rfl⟩ := processMessage_ok h
  have hselected : (w.withStore (w.store.selectTx (.ofNat index))).store.Reachable :=
    hw.reachable.perform (.selectTx (.ofNat index))
  obtain ⟨new, ⟨hlogs, hnumbered, htx⟩, hfailed⟩ := applyMessage_logsAdded hselected he happlied
  have htx' : ∀ log ∈ new, log.txIndex = UInt32.ofNat index := htx
  -- The receipt takes the logs with its own index, and those are the new ones.
  have hown : (receiptOf block (.ofNat index) message outcome (soFar.gasUsed + outcome.gasUsed)
      v.store.commit).logs = new := txLogs_append (s := v.store.commit) hlogs hw.logs_lt htx' hindex
  -- With that, each part is what the message did on the store where its transaction was selected.
  refine ⟨_, rfl, ⟨?_, ?_⟩, ?_, ?_, ?_⟩
  · rw [hown]
    exact htx'
  · rw [hown]
    exact hfailed
  · rw [hown, hstore]
    exact hlogs
  · rw [hown]
    exact hnumbered
  · rw [hstore]
    exact hw.next hindex (applyMessage_reachable hselected he happlied) hlogs htx'

/-- The receipts of all messages hold the logs that were added, in order and numbered on. -/
theorem processMessages_logs {block : BlockHeader} {soFar outcome : BlockOutcome} {index : Nat}
    {messages : List Message} (he : executor.StaysInTx) (hw : BeforeMessage index w.store)
    (hcount : index + messages.length < 2 ^ 32)
    (h : runOn (processMessages config executor block soFar index messages) w = (.ok outcome, w')) :
    ∃ receipts, outcome.receipts = soFar.receipts ++ receipts ∧
      (∀ receipt ∈ receipts, receipt.HoldsOwnLogs) ∧
      w'.store.logs = w.store.logs ++ Receipt.allLogs receipts ∧
      Log.NumberedFrom w.store.logs.length (Receipt.allLogs receipts) := by
  induction messages generalizing soFar index w with
  | nil =>
    obtain ⟨rfl, rfl⟩ := pure_ok.mp h
    exact ⟨[], (List.append_nil _).symm, nofun, (List.append_nil _).symm, Log.numberedFrom_nil _⟩
  | cons message messages ih =>
    rw [List.length_cons] at hcount
    unfold processMessages at h
    obtain ⟨next, v, hfirst, hrest⟩ := bind_ok.mp h
    obtain ⟨receipt, hnext, hholds, hlogs, hnumbered, hv⟩ :=
      processMessage_logs he hw (by omega) hfirst
    obtain ⟨receipts, houtcome, hholds', hlogs', hnumbered'⟩ := ih hv (by omega) hrest
    -- The logs of the rest go on from where those of the first message end.
    rw [hlogs, List.length_append] at hnumbered'
    refine ⟨receipt :: receipts, ?_, List.forall_mem_cons.mpr ⟨hholds, hholds'⟩, ?_, ?_⟩
    · rw [houtcome, hnext, List.append_assoc]
      rfl
    · rw [hlogs', hlogs, List.append_assoc]
      rfl
    · exact Log.numberedFrom_append.mpr ⟨hnumbered, hnumbered'⟩

/-! ## The whole block -/

/-- A block that is carried out drops the logs there were before it does anything with them. -/
theorem runOn_processBlock_withLogs {registry : MigrationRegistry} {block : Block} {source : String}
    {outcome : BlockOutcome}
    (h : runOn (processBlock config registry executor block source) w = (.ok outcome, w'))
    (earlier : List Log) :
    runOn (processBlock config registry executor block source)
      (w.withStore { w.store with logs := earlier }) = (.ok outcome, w') := by
  rw [← h]
  unfold processBlock at h ⊢
  simp only at h ⊢
  split
  · -- Too high a gas limit is the one cause to refuse a block before that.
    next habove =>
    rw [if_pos habove, runOn_bind_of_error (runOn_throw _ _)] at h
    cases h
  · rw [runOn_bind_of_ok (runOn_modify _ _), runOn_bind_of_ok (runOn_change _ _),
      runOn_bind_of_ok (runOn_modify _ w), runOn_bind_of_ok (runOn_change _ _)]
    -- Once they are dropped, both runs are at the same store.
    rfl

/-- The receipts of a block partition its logs: put together in order they are all logs there are, each log
carries its place among them and the transaction of its receipt, and receipts of failed messages hold none.
What logs there were before makes no difference to anything, so none of them is among these. -/
theorem processBlock_logs {chain : ChainConfig} {registry : MigrationRegistry} {block : Block}
    {source : String} {outcome : BlockOutcome}
    (hregistry : MigrationRegistry.ofConfig chain = .ok registry)
    (he : executor.StaysInTx) (hw : w.store.Reachable) (hcount : block.messages.length < 2 ^ 32)
    (h : runOn (processBlock config registry executor block source) w = (.ok outcome, w'))
    (hfew : w'.store.logs.length < 2 ^ 32) :
    Receipt.allLogs outcome.receipts = w'.store.logs ∧
      (∀ (j : Nat) (log : Log), (Receipt.allLogs outcome.receipts)[j]? = some log →
        log.logIndex.toNat = j) ∧
      (∀ receipt ∈ outcome.receipts, (∀ log ∈ receipt.logs, log.txIndex = receipt.txIndex) ∧
        (receipt.succeeded = false → receipt.logs = [])) ∧
      ∀ earlier, runOn (processBlock config registry executor block source)
        (w.withStore { w.store with logs := earlier }) = (.ok outcome, w') := by
  obtain ⟨v, u, hv, hmessages, hw'⟩ := processBlock_ok h
  obtain ⟨hnone, hstart⟩ : v.store.logs = [] ∧ BeforeMessage 0 v.store := by
    rw [hv]
    exact beforeMessage_start (MigrationRegistry.bootstraps_ofConfig hregistry) hw _ _ rfl
  obtain ⟨receipts, houtcome, hholds, hall, hnumbered⟩ :=
    processMessages_logs he hstart (by omega) hmessages
  have hreceipts : outcome.receipts = receipts := houtcome
  -- The block starts without logs, so those of its messages are all there are, numbered from zero.
  rw [hnone, List.nil_append, ← hw'] at hall
  rw [hnone, List.length_nil] at hnumbered
  rw [hall] at hfew ⊢
  rw [hreceipts]
  refine ⟨rfl, fun j log hlog => ?_, hholds, fun earlier => runOn_processBlock_withLogs h earlier⟩
  have hplace := hnumbered j log hlog
  obtain ⟨hj, -⟩ := List.getElem?_eq_some_iff.mp hlog
  rw [hplace, Nat.zero_add]
  exact UInt32.toNat_ofNat_of_lt (Nat.lt_trans hj hfew)

/-- A store with two accounts that have code, and a log of an earlier block. -/
def loggingStore : Store :=
  (Store.withBalances [(.ofNat 7, .ofNat 1000000)]).after
    [.setCode (.ofNat 9) [0], .setCode (.ofNat 10) [0], .addLog (.unplaced (.ofNat 9) [] [9] 0)]

/-- Code that adds two logs, and code that adds one and fails. -/
def loggingScripts : List (Address × Executor.Script) :=
  [(.ofNat 9, ⟨[.addLog (.unplaced (.ofNat 9) [] [1] 1), .addLog (.unplaced (.ofNat 9) [] [2] 1)],
      .success [] 50⟩),
    (.ofNat 10, ⟨[.addLog (.unplaced (.ofNat 10) [] [3] 1)], .failed (.reverted none) 10⟩)]

/-- The failing code is called between two calls of the other one. -/
def loggingBlock : Block :=
  ⟨.simple 1 (.ofNat 8), [.call (.ofNat 7) (.ofNat 9) 0 22000 1, .call (.ofNat 7) (.ofNat 10) 1 22000 1,
    .call (.ofNat 7) (.ofNat 9) 2 22000 1]⟩

def loggingRun : Except LedgerError BlockOutcome × World (List Executor.ScriptedCall) :=
  runOn (processBlock .mainnet .empty (.scripted loggingScripts) loggingBlock "import")
    (.ofStore loggingStore [])

theorem processBlock_logs_sample :
    ∃ outcome, loggingRun.1 = .ok outcome ∧
      outcome.receipts.map (fun receipt => receipt.logs.map (·.logIndex)) = [[0, 1], [], [2, 3]] ∧
      Receipt.allLogs outcome.receipts = loggingRun.2.store.logs := by
  have hstays : (Executor.scripted loggingScripts).StaysInTx := by
    refine Executor.confined_scripted ?_
    simp [loggingScripts, Operation.IsJournaled, Operation.KeepsTx]
  have hreachable : loggingStore.Reachable := (Store.Reachable.withBalances _).after _
  have hfour : loggingRun.2.store.logs.length = 4 := by decide +kernel
  have hplaces : (loggingRun.1.toOption.map fun outcome => outcome.receipts.map fun receipt =>
      receipt.logs.map (·.logIndex)) = some [[0, 1], [], [2, 3]] := by decide +kernel
  -- The run is evaluated for the places only; that the block succeeded follows from there being some.
  cases hresult : loggingRun.1 with
  | error cause =>
    rw [hresult] at hplaces
    cases hplaces
  | ok outcome =>
    rw [hresult] at hplaces
    have hrun : loggingRun = (.ok outcome, loggingRun.2) := by rw [← hresult, Prod.mk.eta]
    have hregistry : MigrationRegistry.ofConfig .mainnet = .ok .empty := rfl
    obtain ⟨hall, -⟩ :=
      processBlock_logs hregistry hstays hreachable (by decide) hrun (by rw [hfour]; decide)
    exact ⟨outcome, rfl, Option.some.inj hplaces, hall⟩

end Step

end BridgeMint
