import BridgeMint.Proofs.Chain.Block
import BridgeMint.Proofs.Transition.OpenSnapshot

/-!
# Blocks and what came before them

A block that is carried out starts by dropping the logs, the journal and the open snapshots it finds, and
selects a transaction before it uses one.  Of everything that came before, it finds the accounts and the
count of snapshots, and the count shows only in what is said of a snapshot that is gone.
-/

namespace BridgeMint

/-! ## The store at the start of a block -/

/-- The store with the given accounts and nothing else. -/
def Store.bare (accounts : SortedMap Address AccountRecord) : Store :=
  { empty with accounts }

/-- A store without logs, once it is committed, differs from a bare one in the count of snapshots and the
selected transaction. -/
theorem Store.selectTx_eq_raise_bare {s : Store} (hlogs : s.logs = []) :
    s.commit.selectTx 0 = (bare s.accounts).raise s.nextSnapshot := by
  simp [commit, selectTx, bare, raise, empty, hlogs]

namespace Step

variable {σ : Type} {d : Nat} {w w' : World σ} {config : ChainConfig} {executor : Executor σ}
  {strategy : ExecutionContext → CallRequest → Strategy}

/-! ## The messages of a block, twice -/

/-- A message of a block does the same on a store whose snapshots are numbered higher. -/
theorem parallel_processMessage (h : executor.Follows strategy) (config : ChainConfig)
    (block : BlockHeader) (soFar : BlockOutcome) (index : Nat) (message : Message) :
    Parallel d id (processMessage config executor block soFar index message)
      (processMessage config executor block soFar index message) := by
  unfold processMessage
  simp only
  split
  · -- The header leaves too little gas; that depends on the receipts so far only.
    intro w w' hw
    rw [runOn_bind_of_error (runOn_throw _ w), runOn_bind_of_error (runOn_throw _ w')]
    exact ⟨rfl, hw⟩
  · -- Selecting, applying, committing and writing the receipt each do the same on both stores.
    refine (parallel_change fun _ => rfl).bind fun _ => ?_
    refine (parallel_applyMessage h _ _ _).bind fun outcome => ?_
    refine (parallel_change fun _ => rfl).bind fun _ => parallel_store.bind fun s => ?_
    exact (parallel_note _ _).bind fun _ => parallel_pure id _

/-- So do all messages of a block, one after the other. -/
theorem parallel_processMessages (h : executor.Follows strategy) (config : ChainConfig)
    (block : BlockHeader) (soFar : BlockOutcome) (index : Nat) (messages : List Message) :
    Parallel d id (processMessages config executor block soFar index messages)
      (processMessages config executor block soFar index messages) := by
  induction messages generalizing soFar index with
  | nil => exact parallel_pure id soFar
  | cons message messages ih =>
    exact (parallel_processMessage h config block soFar index message).bind fun next => ih next _

/-- Which transaction is selected before the messages of a block makes no difference but for the selection
itself. -/
theorem processMessages_selectTx (config : ChainConfig) (executor : Executor σ) (block : BlockHeader)
    (soFar : BlockOutcome) (index : Nat) (messages : List Message) (w : World σ) (i : UInt32) :
    (runOn (processMessages config executor block soFar index messages)
        (w.withStore (w.store.selectTx i))).1 =
      (runOn (processMessages config executor block soFar index messages) w).1 ∧
    ∃ j, (runOn (processMessages config executor block soFar index messages)
        (w.withStore (w.store.selectTx i))).2.store =
      (runOn (processMessages config executor block soFar index messages) w).2.store.selectTx j := by
  cases messages with
  | nil => exact ⟨rfl, i, rfl⟩
  | cons message messages =>
    unfold processMessages processMessage
    simp only
    split
    · -- The gas is checked before anything is selected.
      exact ⟨rfl, i, rfl⟩
    · exact ⟨rfl, _, rfl⟩

/-! ## Snapshots in a block -/

/-- Messages always find the snapshots of their own calls, if their executor commits nothing. -/
theorem findsSnapshots_processMessages (he : executor.KeepsSnapshots) (hw : w.store.Reachable)
    (block : BlockHeader) (soFar : BlockOutcome) (index : Nat) (messages : List Message) :
    FindsSnapshots (processMessages config executor block soFar index messages) w := by
  induction messages generalizing soFar index w with
  | nil => exact findsSnapshots_of_ok (runOn_pure soFar w)
  | cons message messages ih =>
    unfold processMessages
    refine FindsSnapshots.bind ?_ fun next v hfirst => ?_
    · unfold processMessage
      simp only
      split
      · -- A block without enough gas left says nothing of snapshots.
        exact findsSnapshots_of_error (runOn_bind_of_error (runOn_throw _ w)) fun id h => by cases h
      · refine findsSnapshots_bind_of_ok (runOn_change _ w) ?_
        exact (findsSnapshots_applyMessage config he (hw.perform (.selectTx (.ofNat index)))).bind
          fun outcome v _ => findsSnapshots_of_ok rfl
    · -- The next message finds a store that there can be, since this one was committed.
      obtain ⟨outcome, u, -, happlied, hstore, -⟩ := processMessage_ok hfirst
      have hreachable := applyMessage_reachable (hw.perform (.selectTx (.ofNat index))) he happlied
      refine ih ?_ next (index + 1)
      rw [hstore]
      exact hreachable.perform .commit

/-- After a block nothing can be taken back, because every message was committed. -/
theorem committed_of_processMessages {block : BlockHeader} {soFar outcome : BlockOutcome} {index : Nat}
    {messages : List Message} (hw : w.store.commit = w.store)
    (h : runOn (processMessages config executor block soFar index messages) w = (.ok outcome, w')) :
    w'.store.commit = w'.store := by
  induction messages generalizing soFar index w with
  | nil =>
    obtain ⟨-, rfl⟩ := pure_ok.mp h
    exact hw
  | cons message messages ih =>
    unfold processMessages at h
    obtain ⟨next, v, hfirst, hrest⟩ := bind_ok.mp h
    -- What the message leaves has just been committed, and committing again changes nothing.
    obtain ⟨-, u, -, -, hstore, -⟩ := processMessage_ok hfirst
    refine ih ?_ hrest
    rw [hstore]
    rfl

/-! ## The whole block -/

/-- What comes of a block is what comes of its messages on a store with the migrated accounts and nothing
else, but for the numbers of snapshots. -/
theorem processBlock_eq_bare {registry : MigrationRegistry} {block : Block} (source : String)
    (w : World σ) {x : World σ} (hregistry : registry.Bootstraps) (he : executor.Follows strategy)
    (hlimit : block.header.gasLimit ≤ config.gasLimit)
    (hx : x.store = .bare (registry.execute block.header.number source w.toLedger).store.accounts) :
    (runOn (processBlock config registry executor block source) w).1 =
      (runOn (processMessages config executor block.header .start 0 block.messages) x).1.mapError
        (·.raise w.store.nextSnapshot) ∧
    (runOn (processBlock config registry executor block source) w).2.store.accounts =
      (runOn (processMessages config executor block.header .start 0 block.messages) x).2.store.accounts ∧
    (runOn (processBlock config registry executor block source) w).2.store.logs =
      (runOn (processMessages config executor block.header .start 0 block.messages) x).2.store.logs := by
  obtain ⟨v, hv, hresult, hstore⟩ := runOn_processBlock config registry executor source w hlimit
  -- The messages may as well find the first transaction selected.
  obtain ⟨hresult', j, hstore'⟩ := processMessages_selectTx config executor block.header .start 0
    block.messages v 0
  obtain ⟨hlogs, hnext, -⟩ := hregistry.execute_rest block.header.number source
    (w.toLedger.change (·.clearLogs))
  have haccounts := hregistry.accounts_execute block.header.number source source
    (w.toLedger.change (·.clearLogs)) w.toLedger rfl
  -- Cleared, migrated and committed, the store is the bare one up to the count of snapshots.
  have hselected : (v.withStore (v.store.selectTx 0)).store = x.store.raise w.store.nextSnapshot := by
    rw [hx, World.store_withStore, hv, ← haccounts]
    exact (Store.selectTx_eq_raise_bare hlogs).trans (by rw [hnext]; rfl)
  obtain ⟨hraised, hraised'⟩ := parallel_processMessages he config block.header .start 0 block.messages
    x _ hselected
  -- So the messages do on it what they do on the bare store, with higher numbers.
  rw [hresult, ← hresult', hraised, hstore]
  rw [hstore'] at hraised'
  have haccounts' := congrArg Store.accounts hraised'
  have hlogs' := congrArg Store.logs hraised'
  refine ⟨?_, haccounts', hlogs'⟩
  cases (runOn (processMessages config executor block.header .start 0 block.messages) x).1 <;> rfl

/-- A block is not refused because the snapshot of a call is gone, if the executor commits nothing. -/
theorem findsSnapshots_processBlock (config : ChainConfig) {registry : MigrationRegistry} (block : Block)
    (source : String) (hregistry : registry.Bootstraps) (he : executor.KeepsSnapshots)
    (hw : w.store.Reachable) :
    FindsSnapshots (processBlock config registry executor block source) w := by
  intro e herror
  by_cases hlimit : block.header.gasLimit ≤ config.gasLimit
  · obtain ⟨v, hv, hresult, -⟩ := runOn_processBlock config registry executor source w hlimit
    rw [hresult] at herror
    obtain ⟨-, hstart⟩ : v.store.logs = [] ∧ BeforeMessage 0 v.store := by
      rw [hv]
      exact beforeMessage_start hregistry hw _ _ rfl
    exact findsSnapshots_processMessages he hstart.reachable _ _ _ _ e herror
  · rw [runOn_processBlock_of_limit registry executor source w (UInt64.not_le.mp hlimit)] at herror
    cases herror
    nofun

/-- After a block that is carried out there is nothing to take back, and no snapshot to go back to. -/
theorem closed_of_processBlock {registry : MigrationRegistry} {block : Block} {source : String}
    {outcome : BlockOutcome}
    (h : runOn (processBlock config registry executor block source) w = (.ok outcome, w')) :
    w'.store.journal = .empty ∧ ∀ id, w'.store.revertTo id = .error (.unknownSnapshot id) := by
  obtain ⟨v, u, hv, hmessages, hw'⟩ := processBlock_ok h
  have hcommitted := committed_of_processMessages (w := v) (by rw [hv]; rfl) hmessages
  rw [← hw'] at hcommitted
  -- A committed store has an empty journal and no open snapshots.
  rw [← hcommitted]
  exact ⟨rfl, fun id => Store.revertTo_eq_error fun _ hsnap => (List.not_mem_nil hsnap).elim⟩

/-! ## Two stores with the same accounts -/

/-- What comes of a block depends on the accounts and on nothing else that came before it.  On two stores with
the same accounts, an executor that goes by what it reads, and knows snapshots by their order since it was
called, gives the same receipts or the same error, and the same accounts and logs; an error that names a
snapshot names it by the number it has in the store, and there is none unless the executor commits.  After
the block nothing from before it can be gone back to. -/
theorem processBlock_history {registry : MigrationRegistry} {block : Block} {source₁ source₂ : String}
    {w₁ w₂ w₁' w₂' : World σ} {result₁ result₂ : Except LedgerError BlockOutcome}
    (hregistry : registry.Bootstraps) (he : executor.Follows strategy)
    (hw₁ : w₁.store.Reachable) (haccounts : w₁.store.accounts = w₂.store.accounts)
    (h₁ : runOn (processBlock config registry executor block source₁) w₁ = (result₁, w₁'))
    (h₂ : runOn (processBlock config registry executor block source₂) w₂ = (result₂, w₂')) :
    (∃ result : Except LedgerError BlockOutcome,
        result₁ = result.mapError (·.raise w₁.store.nextSnapshot) ∧
        result₂ = result.mapError (·.raise w₂.store.nextSnapshot)) ∧
      ((∀ context request, (strategy context request).NeverCommits) → result₁ = result₂) ∧
      (block.header.gasLimit ≤ config.gasLimit →
        w₁'.store.accounts = w₂'.store.accounts ∧ w₁'.store.logs = w₂'.store.logs) ∧
      (∀ outcome, result₁ = .ok outcome → ∀ s ∈ [w₁'.store, w₂'.store],
        s.journal = .empty ∧ ∀ id, s.revertTo id = .error (.unknownSnapshot id)) := by
  by_cases hlimit : block.header.gasLimit ≤ config.gasLimit
  · -- Both come to what comes of the messages on one and the same bare store.
    have hbare : ∀ s : Store, (w₁.withStore s).store = s := fun _ => rfl
    obtain ⟨hresult₁, haccounts₁, hlogs₁⟩ := processBlock_eq_bare source₁ w₁ hregistry he hlimit (hbare _)
    have hmigrated := hregistry.accounts_execute block.header.number source₁ source₂ w₁.toLedger
      w₂.toLedger haccounts
    obtain ⟨hresult₂, haccounts₂, hlogs₂⟩ := processBlock_eq_bare source₂ w₂ hregistry he hlimit
      ((hbare _).trans (congrArg Store.bare hmigrated))
    simp only [h₁] at hresult₁ haccounts₁ hlogs₁
    simp only [h₂] at hresult₂ haccounts₂ hlogs₂
    generalize runOn (processMessages config executor block.header .start 0 block.messages) _ = bare at *
    -- Numbers show in errors only, so the results agree if no error names one.
    have hresult : (∀ e, result₁ = .error e → e.Unnumbered) → result₁ = result₂ := by
      intro hunnumbered
      rw [hresult₁] at hunnumbered
      exact (hresult₁.trans (LedgerError.mapError_raise_congr hunnumbered _)).trans hresult₂.symm
    refine ⟨⟨bare.1, hresult₁, hresult₂⟩, fun hnever => hresult fun e herror => ?_, fun _ => ⟨?_, ?_⟩,
      fun outcome hok => ?_⟩
    · -- No error names a snapshot, so the numbers do not matter.
      refine findsSnapshots_processBlock config block source₁ hregistry (he.keepsSnapshots hnever) hw₁ e ?_
      rw [h₁]
      exact herror
    · exact haccounts₁.trans haccounts₂.symm
    · exact hlogs₁.trans hlogs₂.symm
    · -- Then the other run ends in the same way.
      have hsame : result₁ = result₂ := hresult fun e herror => by
        rw [hok] at herror
        cases herror
      rw [hok] at h₁
      rw [← hsame, hok] at h₂
      exact List.forall_mem_cons.mpr ⟨closed_of_processBlock h₁,
        List.forall_mem_singleton.mpr (closed_of_processBlock h₂)⟩
  · -- The block is refused before anything is looked at.
    have habove := UInt64.not_le.mp hlimit
    rw [runOn_processBlock_of_limit _ _ _ _ habove] at h₁ h₂
    cases h₁
    cases h₂
    exact ⟨⟨.error (.blockLimitAboveChain _ _), rfl, rfl⟩, fun _ => rfl,
      fun hle => absurd hle hlimit, nofun⟩

/-- The accounts of `fundedStore`, with a log, an open snapshot and another transaction selected. -/
def usedStore : Store :=
  fundedStore.after [.snapshot, .addLog (.unplaced (.ofNat 9) [] [1] 0), .selectTx 5]

/-- Code that goes back to a snapshot of its own, and then leaves a log. -/
def cautious : ExecutionContext → CallRequest → Strategy := fun _ request =>
  .step .snapshot fun
    | .snapshot id =>
      .step (.setNonce request.address 7) fun _ => .step (.revertTo id) fun _ =>
        .step (.addLog (.unplaced request.address [] [2] 1)) fun _ => .answer (.success [] 100)
    | _ => .answer (.failed (.fault "no snapshot") 0)

/-- A chain that installs the mint contract with its first block. -/
def forkRegistry : MigrationRegistry :=
  MigrationRegistry.empty.append (MintFork.mk 1 (.ofNat 3) 1000).migration

/-- A call into code. -/
def calledBlock (value : UInt256) : Block :=
  ⟨.simple 1 (.ofNat 7), [(Message.call (.ofNat 7) (.ofNat 9) 0 30000 0).withValue value]⟩

def cautiousRun (s : Store) (source : String) : Except LedgerError BlockOutcome × World Unit :=
  runOn (processBlock .mainnet forkRegistry (.ofStrategy cautious) (calledBlock 5) source)
    (.ofStore s ())

/-- A block with a call of that code comes to the same on a fresh store and on one that was used before. -/
theorem processBlock_history_cautious :
    usedStore.accounts = fundedStore.accounts ∧ usedStore.nextSnapshot ≠ fundedStore.nextSnapshot ∧
      (∃ outcome, (cautiousRun usedStore "import").1 = .ok outcome) ∧
      (cautiousRun usedStore "import").1 = (cautiousRun fundedStore "produce").1 ∧
      (cautiousRun usedStore "import").2.store.accounts =
        (cautiousRun fundedStore "produce").2.store.accounts := by
  have haccounts : usedStore.accounts = fundedStore.accounts := rfl
  have hcounts : usedStore.nextSnapshot ≠ fundedStore.nextSnapshot := by decide
  have hreachable : usedStore.Reachable :=
    ((Store.Reachable.withBalances _).perform (.setCode (.ofNat 9) [0])).after _
  have hregistry : forkRegistry.Bootstraps := MigrationRegistry.bootstraps_empty.append _
  have hnever : ∀ context request, (cautious context request).NeverCommits := by
    intro context request
    refine ⟨nofun, fun reply => ?_⟩
    cases reply with
    | snapshot id => exact ⟨nofun, fun _ => ⟨nofun, fun _ => ⟨nofun, fun _ => trivial⟩⟩⟩
    | _ => trivial
  have hok : (cautiousRun usedStore "import").1.isOk = true := by decide +kernel
  have hrun₁ : cautiousRun usedStore "import" = (_, _) := Prod.mk.eta.symm
  have hrun₂ : cautiousRun fundedStore "produce" = (_, _) := Prod.mk.eta.symm
  -- Both runs stay folded: what they come to is not evaluated any further.
  generalize (cautiousRun usedStore "import").1 = result₁ at *
  generalize (cautiousRun usedStore "import").2 = w₁' at *
  generalize (cautiousRun fundedStore "produce").1 = result₂ at *
  generalize (cautiousRun fundedStore "produce").2 = w₂' at *
  unfold cautiousRun at hrun₁ hrun₂
  obtain ⟨-, hsame, hstores, -⟩ := processBlock_history hregistry
    (Executor.follows_ofStrategy cautious) hreachable haccounts hrun₁ hrun₂
  obtain ⟨hsameAccounts, -⟩ := hstores (by decide)
  refine ⟨haccounts, hcounts, ?_, hsame hnever, hsameAccounts⟩
  cases result₁ with
  | ok outcome => exact ⟨outcome, rfl⟩
  | error e => cases hok

/-! ## What the numbers of snapshots give away

Code that commits closes the snapshot it would have to be taken back to, and the error names that snapshot.
Code that goes back to a fixed number finds a snapshot on one store and none on another.
-/

/-- A store with the accounts of `fundedStore` on which a snapshot has been opened. -/
def countedStore : Store :=
  fundedStore.after [.snapshot, .commit]

def scriptedRun (operation : Operation) (result : CallResult) (s : Store) (value : UInt256) :
    Except LedgerError BlockOutcome × World (List Executor.ScriptedCall) :=
  runOn (processBlock .mainnet .empty (.scripted [(.ofNat 9, ⟨[operation], result⟩)]) (calledBlock value)
    "import") (.ofStore s [])

/-- Scripts read nothing at all, and still the error, or the accounts afterwards, can depend on how many
snapshots there have been. -/
theorem processBlock_counts_snapshots :
    fundedStore.Reachable ∧ countedStore.Reachable ∧ countedStore.accounts = fundedStore.accounts ∧
      MigrationRegistry.empty.Bootstraps ∧
      (∀ operation result, ∃ strategy, (Executor.scripted [(.ofNat 9, ⟨[operation], result⟩)]).FollowsFrom
        (fun _ => 0) strategy) ∧
      (scriptedRun .commit (.failed (.reverted none) 0) fundedStore 0).1 =
        .error (.store (.unknownSnapshot 0)) ∧
      (scriptedRun .commit (.failed (.reverted none) 0) countedStore 0).1 =
        .error (.store (.unknownSnapshot 1)) ∧
      (scriptedRun (.revertTo 0) (.success [] 0) fundedStore 5).2.store.accounts ≠
        (scriptedRun (.revertTo 0) (.success [] 0) countedStore 5).2.store.accounts := by
  have hreachable : fundedStore.Reachable :=
    (Store.Reachable.withBalances _).perform (.setCode (.ofNat 9) [0])
  -- The two errors and the accounts are found by running the blocks.
  refine ⟨hreachable, hreachable.after _, rfl, MigrationRegistry.bootstraps_empty,
    fun operation result => ⟨_, Executor.followsFrom_scripted _⟩, ?_, ?_, ?_⟩
  · decide +kernel
  · decide +kernel
  · decide +kernel

end Step

end BridgeMint
