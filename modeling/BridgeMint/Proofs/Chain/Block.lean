import BridgeMint.Block
import BridgeMint.Proofs.Chain.Forks
import BridgeMint.Proofs.Transition.Minting

/-!
# Blocks

A block is its messages, carried out one after the other on a store that has been cleared of what was left
from before and migrated.  Every message is committed before the next one starts, so each of them finds an
empty journal, and the logs of its own transaction are its own: the receipts tell all that was minted.
-/

namespace BridgeMint

/-- The logs in a list of receipts. -/
def Receipt.allLogs (receipts : List Receipt) : List Log :=
  receipts.flatMap (·.logs)

namespace Step

variable {σ : Type} {w w' : World σ} {config : ChainConfig} {executor : Executor σ}

/-! ## One message -/

/-- A message of a block that is carried out asks for no more gas than the block has left; it is committed,
and its receipt takes the logs of its transaction. -/
theorem processMessage_ok {block : BlockHeader} {soFar next : BlockOutcome} {index : Nat}
    {message : Message}
    (h : runOn (processMessage config executor block soFar index message) w = (.ok next, w')) :
    ∃ outcome v, message.gasLimit ≤ block.gasLimit - soFar.gasUsed ∧
      runOn (applyMessage config executor (.ofBlock block) message)
        (w.withStore (w.store.selectTx (.ofNat index))) = (.ok outcome, v) ∧
      w'.store = v.store.commit ∧
      next = ⟨soFar.receipts ++ [receiptOf block (.ofNat index) message outcome
        (soFar.gasUsed + outcome.gasUsed) v.store.commit], soFar.gasUsed + outcome.gasUsed⟩ := by
  unfold processMessage at h
  simp only at h
  split at h
  · -- Without the gas for it the message is refused, so it is not carried out.
    rw [runOn_bind_of_error (runOn_throw _ _)] at h
    cases h
  · next hgas =>
    rw [runOn_bind_of_ok (runOn_change _ _)] at h
    obtain ⟨outcome, v, happlied, h⟩ := bind_ok.mp h
    rw [runOn_bind_of_ok (runOn_change _ _), runOn_bind_of_ok (runOn_store _),
      runOn_bind_of_ok (runOn_note _ _)] at h
    obtain ⟨rfl, rfl⟩ := pure_ok.mp h
    exact ⟨outcome, v, UInt64.not_lt.mp hgas, happlied, rfl, rfl⟩

/-- The store before the message with the given place in its block. -/
structure BeforeMessage (index : Nat) (s : Store) : Prop where
  reachable : s.Reachable
  journal_eq : s.journal = .empty
  logs_lt : ∀ log ∈ s.logs, log.txIndex.toNat < index

/-- Among all logs of the block, those of the last transaction are the ones it added. -/
theorem txLogs_append {logs new : List Log} {s : Store} {index : Nat} (hs : s.logs = logs ++ new)
    (hlogs : ∀ log ∈ logs, log.txIndex.toNat < index)
    (hnew : ∀ log ∈ new, log.txIndex = .ofNat index) (hindex : index < 2 ^ 32) :
    s.txLogs (.ofNat index) = new := by
  have hplace : (UInt32.ofNat index).toNat = index := UInt32.toNat_ofNat_of_lt hindex
  -- Logs from before belong to transactions with smaller numbers.
  have hold : logs.filter (fun log => log.txIndex == UInt32.ofNat index) = [] := by
    rw [List.filter_eq_nil_iff]
    intro log hlog heq
    have hlt := hlogs log hlog
    rw [beq_iff_eq.mp heq, hplace] at hlt
    exact Nat.lt_irrefl _ hlt
  have hall : new.filter (fun log => log.txIndex == UInt32.ofNat index) = new := by
    rw [List.filter_eq_self]
    intro log hlog
    rw [hnew log hlog]
    exact beq_self_eq_true _
  rw [Store.txLogs, hs, List.filter_append, hold, hall, List.nil_append]

/-- A message adds logs of its own transaction, so its place stays above those of all logs. -/
theorem BeforeMessage.next {index : Nat} {s t : Store} {new : List Log} (hs : BeforeMessage index s)
    (hindex : index < 2 ^ 32) (ht : t.Reachable) (hlogs : t.logs = s.logs ++ new)
    (hnew : ∀ log ∈ new, log.txIndex = .ofNat index) : BeforeMessage (index + 1) t.commit := by
  refine ⟨ht.perform .commit, rfl, fun log hlog => ?_⟩
  have hplace : (UInt32.ofNat index).toNat = index := UInt32.toNat_ofNat_of_lt hindex
  have hlog' : log ∈ s.logs ++ new := hlogs ▸ hlog
  rcases List.mem_append.mp hlog' with hold | hnew'
  · exact Nat.lt_succ_of_lt (hs.logs_lt log hold)
  · rw [hnew log hnew', hplace]
    exact Nat.lt_succ_self index

/-- A message of a block mints what its receipt tells, and leaves the store as the next one needs it. -/
theorem processMessage_metered {block : BlockHeader} {soFar next : BlockOutcome} {index : Nat}
    {message : Message} (he : executor.SparesMint) (hw : BeforeMessage index w.store)
    (hindex : index < 2 ^ 32)
    (h : runOn (processMessage config executor block soFar index message) w = (.ok next, w')) :
    ∃ receipt, next.receipts = soFar.receipts ++ [receipt] ∧
      w.store.Metered w'.store receipt.logs ∧ BeforeMessage (index + 1) w'.store := by
  obtain ⟨outcome, v, -, happlied, hstore, rfl⟩ := processMessage_ok h
  have hselected : (w.store.selectTx (.ofNat index)).Reachable :=
    hw.reachable.perform (.selectTx (.ofNat index))
  obtain ⟨⟨new, hlogs, hnew, hmetered⟩, hreachable⟩ :=
    applyMessage_tracked (w := w.withStore _) hselected hw.journal_eq he happlied
  -- The logs it added are of the transaction that was selected, which is its place in the block.
  have hnew' : ∀ log ∈ new, log.txIndex = UInt32.ofNat index := hnew
  refine ⟨_, rfl, ?_, ?_⟩
  · -- Selecting a transaction and committing leave the accounts alone.
    have hcommitted : v.store.commit.txLogs (.ofNat index) = new :=
      txLogs_append (s := v.store.commit) hlogs hw.logs_lt hnew' hindex
    have hreceipt : (receiptOf block (.ofNat index) message outcome
        (soFar.gasUsed + outcome.gasUsed) v.store.commit).logs = new := hcommitted
    rw [hreceipt, hstore]
    exact hmetered.congr rfl rfl
  · rw [hstore]
    exact hw.next hindex hreachable hlogs hnew'

/-! ## The messages of a block -/

/-- Any number of messages mint what their receipts tell together. -/
theorem processMessages_metered {block : BlockHeader} {soFar outcome : BlockOutcome} {index : Nat}
    {messages : List Message} (he : executor.SparesMint) (hw : BeforeMessage index w.store)
    (hcount : index + messages.length < 2 ^ 32)
    (h : runOn (processMessages config executor block soFar index messages) w = (.ok outcome, w')) :
    ∃ receipts, outcome.receipts = soFar.receipts ++ receipts ∧
      w.store.Metered w'.store (Receipt.allLogs receipts) ∧ w'.store.Reachable := by
  induction messages generalizing soFar index w with
  | nil =>
    obtain ⟨rfl, rfl⟩ := pure_ok.mp h
    exact ⟨[], (List.append_nil _).symm, .refl _, hw.reachable⟩
  | cons message messages ih =>
    rw [List.length_cons] at hcount
    unfold processMessages at h
    -- The first message leaves what the next one starts from.
    obtain ⟨next, v, hfirst, hrest⟩ := bind_ok.mp h
    obtain ⟨receipt, hnext, hmetered, hv⟩ := processMessage_metered he hw (by omega) hfirst
    obtain ⟨receipts, houtcome, hmetered', hreachable⟩ := ih hv (by omega) hrest
    refine ⟨receipt :: receipts, ?_, ?_, hreachable⟩
    · rw [houtcome, hnext, List.append_assoc]
      rfl
    · exact hmetered.trans hmetered'

/-! ## The whole block -/

@[simp] theorem runOn_migrate (registry : MigrationRegistry) (height : UInt64) (source : String)
    (w : World σ) : runOn (migrate registry height source) w =
      (.ok (), w.withLedger (registry.execute height source w.toLedger)) := rfl

/-- A block whose gas limit is above that of the chain is refused before anything is done. -/
theorem runOn_processBlock_of_limit (registry : MigrationRegistry) (executor : Executor σ) {block : Block}
    (source : String) (w : World σ) (h : config.gasLimit < block.header.gasLimit) :
    runOn (processBlock config registry executor block source) w =
      (.error (.blockLimitAboveChain block.header.gasLimit config.gasLimit), w) := by
  unfold processBlock
  simp only
  rw [if_pos h]
  exact runOn_bind_of_error (runOn_throw _ w)

/-- The world in which the messages of a block start: nothing is traced, the logs from before are gone, and
the migrations have run and are committed. -/
def openBlock (registry : MigrationRegistry) (header : BlockHeader) (source : String) (w : World σ) :
    World σ :=
  let cleared := World.withStore { w with trace := none } w.store.clearLogs
  let migrated := cleared.withLedger (registry.execute header.number source cleared.toLedger)
  migrated.withStore migrated.store.commit

/-- A block that is not refused for its gas limit is its messages.  They start in a world that does not
depend on them. -/
theorem runOn_processBlock_open (config : ChainConfig) (registry : MigrationRegistry)
    (executor : Executor σ) (block : Block) (source : String) (w : World σ)
    (hlimit : block.header.gasLimit ≤ config.gasLimit) :
    (runOn (processBlock config registry executor block source) w).1 =
        (runOn (processMessages config executor block.header .start 0 block.messages)
          (openBlock registry block.header source w)).1 ∧
      (runOn (processBlock config registry executor block source) w).2.store =
        (runOn (processMessages config executor block.header .start 0 block.messages)
          (openBlock registry block.header source w)).2.store ∧
      (runOn (processBlock config registry executor block source) w).2.memory =
        (runOn (processMessages config executor block.header .start 0 block.messages)
          (openBlock registry block.header source w)).2.memory := by
  unfold processBlock
  simp only
  rw [if_neg (UInt64.not_lt.mpr hlimit)]
  -- Clearing, migrating and committing always succeed, and lead to the world in which messages start.
  rw [runOn_bind_of_ok (runOn_modify _ _), runOn_bind_of_ok (runOn_change _ _),
    runOn_bind_of_ok (runOn_migrate _ _ _ _), runOn_bind_of_ok (runOn_change _ _)]
  have hopen : World.withStore _ _ = openBlock registry block.header source w := rfl
  rw [hopen]
  cases hrun : runOn (processMessages config executor block.header .start 0 block.messages)
      (openBlock registry block.header source w) with
  | mk result u =>
    cases result with
    | ok outcome =>
      -- Giving notice of the block leaves the store and the executor alone.
      rw [runOn_bind_of_ok hrun]
      exact ⟨rfl, rfl, rfl⟩
    | error e =>
      rw [runOn_bind_of_error hrun]
      exact ⟨rfl, rfl, rfl⟩

/-- A block that is not refused for its gas limit is its messages, run on a store that has been cleared of
what was left from before and migrated. -/
theorem runOn_processBlock (config : ChainConfig) (registry : MigrationRegistry) (executor : Executor σ)
    {block : Block} (source : String) (w : World σ)
    (hlimit : block.header.gasLimit ≤ config.gasLimit) :
    ∃ v : World σ, v.store = (registry.execute block.header.number source
        (w.toLedger.change (·.clearLogs))).store.commit ∧
      (runOn (processBlock config registry executor block source) w).1 =
        (runOn (processMessages config executor block.header .start 0 block.messages) v).1 ∧
      (runOn (processBlock config registry executor block source) w).2.store =
        (runOn (processMessages config executor block.header .start 0 block.messages) v).2.store := by
  obtain ⟨hresult, hstore, -⟩ := runOn_processBlock_open config registry executor block source w hlimit
  exact ⟨openBlock registry block.header source w, rfl, hresult, hstore⟩

/-- A block that is carried out is within the gas limit of the chain, and so are its messages carried out. -/
theorem processBlock_open {registry : MigrationRegistry} {header : BlockHeader} {messages : List Message}
    {source : String} {outcome : BlockOutcome}
    (h : runOn (processBlock config registry executor ⟨header, messages⟩ source) w = (.ok outcome, w')) :
    header.gasLimit ≤ config.gasLimit ∧
      ∃ u, runOn (processMessages config executor header .start 0 messages)
          (openBlock registry header source w) = (.ok outcome, u) ∧
        w'.store = u.store ∧ w'.memory = u.memory := by
  by_cases hlimit : header.gasLimit ≤ config.gasLimit
  · obtain ⟨hresult, hstore, hmemory⟩ :=
      runOn_processBlock_open config registry executor ⟨header, messages⟩ source w hlimit
    rw [h] at hresult hstore hmemory
    exact ⟨hlimit, _, runOn_eq_of_fst hresult.symm, hstore, hmemory⟩
  · rw [runOn_processBlock_of_limit registry executor source w (UInt64.not_le.mp hlimit)] at h
    cases h

/-- The messages of a block that is carried out are carried out, on the store as it was cleared and
migrated. -/
theorem processBlock_ok {registry : MigrationRegistry} {block : Block} {source : String}
    {outcome : BlockOutcome}
    (h : runOn (processBlock config registry executor block source) w = (.ok outcome, w')) :
    ∃ v u, v.store = (registry.execute block.header.number source
        (w.toLedger.change (·.clearLogs))).store.commit ∧
      runOn (processMessages config executor block.header .start 0 block.messages) v =
        (.ok outcome, u) ∧ w'.store = u.store := by
  obtain ⟨-, u, hmessages, hstore, -⟩ := processBlock_open h
  exact ⟨openBlock registry block.header source w, u, rfl, hmessages, hstore⟩

/-- The first message of a block finds no logs and an empty journal, whatever there was before. -/
theorem beforeMessage_start {registry : MigrationRegistry} (hregistry : registry.Bootstraps)
    {s : Store} (hs : s.Reachable) (height : UInt64) (source : String) {l : Ledger}
    (hl : l.store = s.clearLogs) :
    (registry.execute height source l).store.commit.logs = [] ∧
      BeforeMessage 0 (registry.execute height source l).store.commit := by
  obtain ⟨hlogs, -, hreachable⟩ := hregistry.execute_rest height source l
  rw [hl] at hlogs hreachable
  -- The journal has just been committed, and of logs there are none.
  refine ⟨hlogs, (hreachable (hs.perform .clearLogs)).perform .commit, rfl, fun log hlog => ?_⟩
  have hnone : log ∈ (registry.execute height source l).store.logs := hlog
  rw [hlogs] at hnone
  exact (List.not_mem_nil hnone).elim

/-- The receipts of a block tell what was minted since its migrations ran. -/
theorem processBlock_metered {fork : MintFork} {registry : MigrationRegistry} {block : Block}
    {source : String} {outcome : BlockOutcome} (hfork : MintFork.ofConfig config = .ok (some fork))
    (hregistry : MigrationRegistry.ofConfig config = .ok registry) (he : executor.SparesMint)
    (hw : w.store.Reachable) (hcount : block.messages.length < 2 ^ 32)
    (h : runOn (processBlock config registry executor block source) w = (.ok outcome, w')) :
    (fork.migrated block.header.number w.store.clearLogs).Metered w'.store
        (Receipt.allLogs outcome.receipts) ∧ w'.store.Reachable := by
  obtain ⟨v, u, hv, hmessages, hw'⟩ := processBlock_ok h
  obtain ⟨-, hstart⟩ : v.store.logs = [] ∧ BeforeMessage 0 v.store := by
    rw [hv]
    exact beforeMessage_start (MigrationRegistry.bootstraps_ofConfig hregistry) hw _ _ rfl
  rw [MintFork.store_execute hfork hregistry] at hv
  obtain ⟨receipts, houtcome, hmetered, hreachable⟩ :=
    processMessages_metered he hstart (by omega) hmessages
  have hall : outcome.receipts = receipts := houtcome
  -- No receipt stands before those of the messages, and committing does not touch the contract.
  rw [hall, hw']
  rw [hv] at hmetered
  exact ⟨hmetered.congr rfl rfl, hreachable⟩

end Step

end BridgeMint
