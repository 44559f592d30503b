import BridgeMint.Migration.MintFork
import BridgeMint.Proofs.Migration.Registry
import BridgeMint.Proofs.Mint.Metered

/-!
# The migrations of a chain

All that a chain schedules is the fork that installs its mint contract.  A fork writes code and two words: it
adds no logs, opens no snapshots, and what it does to the accounts depends on the accounts alone.
-/

namespace BridgeMint

/-! ## One fork -/

namespace MintFork

theorem reachable_install (fork : MintFork) {s : Store} (hs : s.Reachable) :
    (fork.install s).Reachable := by
  have hcode := hs.perform (.setCode MintContract.address MintContract.bytecode)
  have howner := hcode.perform
    (.setWord MintContract.address MintContract.ownerSlot fork.owner.toWord)
  exact howner.perform (.setWord MintContract.address MintContract.limitSlot fork.limit.toWord)

/-- The record of the contract's account, once the fork has installed it. -/
def installed (fork : MintFork) (r : AccountRecord) : AccountRecord :=
  ((r.withCode MintContract.bytecode).withWord MintContract.ownerSlot fork.owner.toWord).withWord
    MintContract.limitSlot fork.limit.toWord

/-- The installed storage has the owner and the limit in their slots, where zero is not kept, and else what
it had. -/
theorem get?_installed (fork : MintFork) (r : AccountRecord) (key : Word) :
    (fork.installed r).storage.get? key =
      if key = MintContract.limitSlot then
        (if fork.limit.toWord = .zero then none else some fork.limit.toWord)
      else if key = MintContract.ownerSlot then
        (if fork.owner.toWord = .zero then none else some fork.owner.toWord)
      else r.storage.get? key := by
  unfold installed
  rw [AccountRecord.get?_withWord, AccountRecord.get?_withWord]
  rfl

/-- Read as words, the two slots hold the owner and the limit. -/
theorem word_installed (fork : MintFork) (r : AccountRecord) (key : Word) :
    (fork.installed r).word key =
      if key = MintContract.limitSlot then fork.limit.toWord
      else if key = MintContract.ownerSlot then fork.owner.toWord else r.word key := by
  unfold installed
  rw [AccountRecord.word_withWord, AccountRecord.word_withWord]
  rfl

/-- The contract's account is the only one that changes. -/
theorem get?_install (fork : MintFork) (s : Store) (a : Address) :
    (fork.install s).accounts.get? a =
      if a = MintContract.address then some (fork.installed (s.record MintContract.address))
      else s.accounts.get? a := by
  unfold install
  simp only [Store.setCode_eq_write, Store.setWord_eq_write, Store.get?_write, Store.record_write, if_true]
  split <;> rfl

/-- The record of the contract's account is replaced, and no other. -/
theorem record_install (fork : MintFork) (s : Store) (a : Address) :
    (fork.install s).record a =
      if a = MintContract.address then fork.installed (s.record MintContract.address)
      else s.record a := by
  simp only [Store.record, get?_install]
  split <;> rfl

theorem accounts_install_congr (fork : MintFork) {s t : Store} (h : s.accounts = t.accounts) :
    (fork.install s).accounts = (fork.install t).accounts := by
  refine SortedMap.ext_get? fun a => ?_
  rw [get?_install, get?_install, Store.record, Store.record, h]

/-- The fork adds no logs and opens no snapshots. -/
theorem install_rest (fork : MintFork) (s : Store) :
    (fork.install s).logs = s.logs ∧ (fork.install s).nextSnapshot = s.nextSnapshot := by
  unfold install
  simp only [Store.setCode_eq_write, Store.setWord_eq_write, Store.logs_write, Store.nextSnapshot_write,
    and_self]

@[simp] theorem height_migration (fork : MintFork) : fork.migration.height = fork.height := rfl

/-- What the installed contract says. -/
theorem contract_install (fork : MintFork) (s : Store) :
    (fork.install s).mintDigest = MintContract.codeHash ∧
      (fork.install s).code MintContract.address = MintContract.bytecode ∧
      (fork.install s).word MintContract.address MintContract.ownerSlot = fork.owner.toWord ∧
      (fork.install s).mintLimit = fork.limit := by
  have hslots : MintContract.ownerSlot ≠ MintContract.limitSlot := by decide
  have hrecord := fork.record_install s MintContract.address
  rw [if_pos rfl] at hrecord
  -- All four are read from the record that the fork has put there.
  refine ⟨?_, ?_, ?_, ?_⟩
  · rw [Store.mintDigest, hrecord]
    rfl
  · rw [Store.code, hrecord]
    rfl
  · rw [Store.word, hrecord, word_installed, if_neg hslots, if_pos rfl]
  · rw [Store.mintLimit, Store.word, hrecord, word_installed, if_pos rfl, UInt256.ofWord_toWord]

/-! ## The fork of a chain -/

/-- The store once the migrations of a height have run. -/
def migrated (fork : MintFork) (height : UInt64) (s : Store) : Store :=
  if height = fork.height then fork.install s else s

/-- A registry to which only the fork has been added. -/
theorem execute_append_empty (fork : MintFork) (height : UInt64) (source : String) (ledger : Ledger) :
    (MigrationRegistry.empty.append fork.migration).execute height source ledger =
      if height = fork.height then
        (ledger.note (.migrating migrationName height source)).change fork.install
      else ledger := by
  rw [MigrationRegistry.execute, MigrationRegistry.scheduledAt_append, height_migration]
  split <;> rfl

/-- The registry of a chain with the fork runs it at its height, and nothing else. -/
theorem store_execute {fork : MintFork} {config : ChainConfig} {registry : MigrationRegistry}
    (hfork : ofConfig config = .ok (some fork))
    (hregistry : MigrationRegistry.ofConfig config = .ok registry) (height : UInt64)
    (source : String) (ledger : Ledger) :
    (registry.execute height source ledger).store = fork.migrated height ledger.store := by
  unfold MigrationRegistry.ofConfig at hregistry
  rw [hfork] at hregistry
  -- With a fork in its parameters the chain schedules that fork, and only that.
  cases hregistry
  rw [execute_append_empty, migrated]
  split <;> rfl

end MintFork

/-! ## Registries of mint forks -/

namespace MigrationRegistry

/-- All that is scheduled are mint forks. -/
def Bootstraps (registry : MigrationRegistry) : Prop :=
  ∀ height, ∀ migration ∈ registry.scheduledAt height, ∃ fork : MintFork, migration = fork.migration

/-- Where nothing is scheduled, there is nothing but forks. -/
theorem bootstraps_empty : empty.Bootstraps :=
  fun _ _ hmigration => (List.not_mem_nil hmigration).elim

/-- One more fork is still nothing but forks. -/
theorem Bootstraps.append {registry : MigrationRegistry} (h : registry.Bootstraps) (fork : MintFork) :
    (registry.append fork.migration).Bootstraps := by
  intro height migration hmigration
  rw [scheduledAt_append] at hmigration
  -- At the height of the fork one migration comes after those there were.
  split at hmigration
  · rcases List.mem_append.mp hmigration with hold | hnew
    · exact h _ migration hold
    · exact ⟨fork, List.mem_singleton.mp hnew⟩
  · exact h height migration hmigration

/-- A chain schedules nothing else. -/
theorem bootstraps_ofConfig {config : ChainConfig} {registry : MigrationRegistry}
    (h : ofConfig config = .ok registry) : registry.Bootstraps := by
  unfold ofConfig at h
  split at h
  · cases h
  · cases h
    exact bootstraps_empty
  · cases h
    exact bootstraps_empty.append _

variable {registry : MigrationRegistry}

/-- What forks do to the accounts depends on the accounts only. -/
theorem Bootstraps.accounts_execute (h : registry.Bootstraps) (height : UInt64)
    (source₁ source₂ : String) (l₁ l₂ : Ledger) (haccounts : l₁.store.accounts = l₂.store.accounts) :
    (registry.execute height source₁ l₁).store.accounts =
      (registry.execute height source₂ l₂).store.accounts := by
  have hforks := h height
  unfold execute
  generalize registry.scheduledAt height = migrations at hforks ⊢
  -- The migrations of the height run one after the other, on accounts that are equal before each.
  induction migrations generalizing l₁ l₂ with
  | nil => exact haccounts
  | cons migration rest ih =>
    obtain ⟨⟨fork, rfl⟩, hrest⟩ := List.forall_mem_cons.mp hforks
    rw [List.foldl_cons, List.foldl_cons]
    exact ih _ _ (fork.accounts_install_congr haccounts) hrest

/-- Forks add no logs and open no snapshots, and the store stays one that there can be. -/
theorem Bootstraps.execute_rest (h : registry.Bootstraps) (height : UInt64) (source : String)
    (l : Ledger) :
    (registry.execute height source l).store.logs = l.store.logs ∧
      (registry.execute height source l).store.nextSnapshot = l.store.nextSnapshot ∧
      (l.store.Reachable → (registry.execute height source l).store.Reachable) := by
  have hforks := h height
  unfold execute
  generalize registry.scheduledAt height = migrations at hforks ⊢
  induction migrations generalizing l with
  | nil => exact ⟨rfl, rfl, id⟩
  | cons migration rest ih =>
    obtain ⟨⟨fork, rfl⟩, hrest⟩ := List.forall_mem_cons.mp hforks
    -- Each fork keeps the logs and the count, and so do all of them in turn.
    obtain ⟨hlogs, hnext⟩ := fork.install_rest l.store
    obtain ⟨hlogs', hnext', hreachable⟩ :=
      ih (fork.migration.run (l.note (.migrating fork.migration.name height source))) hrest
    rw [List.foldl_cons]
    exact ⟨hlogs'.trans hlogs, hnext'.trans hnext, fun hl => hreachable (fork.reachable_install hl)⟩

end MigrationRegistry

end BridgeMint
