import BridgeMint.Proofs.Chain.Quota
import BridgeMint.Proofs.Migration.Registry
import Mathlib.Data.List.Sort

/-!
# Plans and chains

A trial run of a plan and a chain of blocks both run the migrations height by height, and commit them.  What
forks do to the accounts depends on the accounts alone, and blocks without messages do nothing else; so a
chain of such blocks comes to the roots that the plan tells, however many blocks there are in between.
-/

namespace BridgeMint

/-- The root depends on the accounts alone. -/
theorem Store.root_congr {s t : Store} (h : s.accounts = t.accounts) : s.root = t.root := by
  rw [root, root, encodeAccounts, encodeAccounts, h]

namespace MigrationRegistry

/-- The registry to which forks have been added one after another. -/
def ofForks (forks : List MintFork) : MigrationRegistry :=
  (forks.map MintFork.migration).foldl MigrationRegistry.append empty

variable {registry : MigrationRegistry}

/-- At each height the forks of that height are scheduled, in the order they were added. -/
theorem scheduledAt_ofForks (forks : List MintFork) (height : UInt64) :
    (ofForks forks).scheduledAt height =
      (forks.filter (·.height = height)).map MintFork.migration := by
  rw [ofForks, scheduledAt_foldl_append, List.filter_map]
  rfl

/-- Something is scheduled only at the height of a fork. -/
theorem mem_heights_ofForks {forks : List MintFork} {height : UInt64}
    (h : height ∈ (ofForks forks).heights) : ∃ fork ∈ forks, fork.height = height := by
  rcases mem_heights_foldl_append.mp h with ⟨migration, hmigration, hheight⟩ | hempty
  · obtain ⟨fork, hfork, rfl⟩ := List.mem_map.mp hmigration
    exact ⟨fork, hfork, hheight⟩
  · exact (List.not_mem_nil hempty).elim

theorem bootstraps_ofForks (forks : List MintFork) : (ofForks forks).Bootstraps := by
  intro height migration hmigration
  rw [scheduledAt_ofForks] at hmigration
  obtain ⟨fork, -, rfl⟩ := List.mem_map.mp hmigration
  exact ⟨fork, rfl⟩

/-! ## Heights in between -/

/-- Heights that nothing is scheduled for make no difference to the accounts. -/
theorem Bootstraps.accounts_tryAll (h : registry.Bootstraps) (heights : List UInt64) {l l' : Ledger}
    (haccounts : l.store.accounts = l'.store.accounts) :
    (registry.tryAll (heights.filter (· ∈ registry.heights)) l).store.accounts =
      (registry.tryAll heights l').store.accounts := by
  induction heights generalizing l l' with
  | nil => exact haccounts
  | cons height rest ih =>
    by_cases hmem : height ∈ registry.heights
    · rw [List.filter_cons_of_pos (by simpa using hmem)]
      exact ih (h.accounts_execute height trialSource trialSource l l' haccounts)
    · -- There only the commit is left, which does not touch the accounts.
      rw [List.filter_cons_of_neg (by simpa using hmem)]
      have hnothing : (registry.tryHeight height l').store.accounts = l'.store.accounts := by
        rw [tryHeight, execute_of_not_mem hmem]
        rfl
      exact ih (haccounts.trans hnothing.symm)

end MigrationRegistry

namespace Step

variable {σ : Type} {w : World σ} {config : ChainConfig} {executor : Executor σ}
  {registry : MigrationRegistry}

/-! ## Blocks without messages -/

/-- Blocks without messages, within the gas limit of the chain, at ascending heights up to a given one. -/
structure EmptyChain (config : ChainConfig) (height : UInt64) (blocks : List (Block × String)) : Prop where
  messages_eq : ∀ x ∈ blocks, x.1.messages = []
  gasLimit_le : ∀ x ∈ blocks, x.1.header.gasLimit ≤ config.gasLimit
  numbers : (blocks.map (·.1.header.number)).Pairwise (· < ·)
  last_eq : (blocks.map (·.1.header.number)).getLast? = some height

/-- Such a block is carried out, and runs the migrations of its height. -/
theorem processBlock_nil (config : ChainConfig) (registry : MigrationRegistry) (executor : Executor σ)
    {header : BlockHeader} (source : String) (w : World σ) (hlimit : header.gasLimit ≤ config.gasLimit) :
    ∃ outcome v,
      runOn (processBlock config registry executor ⟨header, []⟩ source) w = (.ok outcome, v) ∧
      v.store.accounts =
        (registry.execute header.number source (w.toLedger.change (·.clearLogs))).store.accounts := by
  obtain ⟨hresult, hstore, -⟩ := runOn_processBlock_open config registry executor
    ⟨header, []⟩ source w hlimit
  have haccounts := congrArg Store.accounts hstore
  exact ⟨.start, _, runOn_eq_of_fst hresult, haccounts⟩

/-- A chain of such blocks runs the migrations of its heights, as a trial run does. -/
theorem processChain_nil (executor : Executor σ) (hregistry : registry.Bootstraps)
    {blocks : List (Block × String)}
    (hmessages : ∀ x ∈ blocks, x.1.messages = [])
    (hlimits : ∀ x ∈ blocks, x.1.header.gasLimit ≤ config.gasLimit) {l : Ledger}
    (haccounts : l.store.accounts = w.store.accounts) :
    ∃ processed w', runOn (processChain config registry executor blocks) w = (.ok processed, w') ∧
      w'.store.accounts = (registry.tryAll (blocks.map (·.1.header.number)) l).store.accounts := by
  induction blocks generalizing w l with
  | nil => exact ⟨[], w, rfl, haccounts.symm⟩
  | cons x blocks ih =>
    obtain ⟨⟨header, messages⟩, source⟩ := x
    obtain ⟨hnone, hmessages'⟩ := List.forall_mem_cons.mp hmessages
    obtain ⟨hlimit, hlimits'⟩ := List.forall_mem_cons.mp hlimits
    obtain rfl : messages = [] := hnone
    obtain ⟨outcome, v, hblock, hv⟩ := processBlock_nil config registry executor source w hlimit
    -- The block drops logs and the trial run does not; forks do the same to the accounts either way.
    have haccounts' : (registry.tryHeight header.number l).store.accounts = v.store.accounts := by
      rw [hv]
      exact hregistry.accounts_execute header.number MigrationRegistry.trialSource source l _ haccounts
    obtain ⟨processed, w', hchain, hw'⟩ := ih hmessages' hlimits' haccounts'
    refine ⟨(⟨header, []⟩, outcome) :: processed, w', ?_, hw'⟩
    rw [processChain, runOn_bind_of_ok hblock, runOn_bind_of_ok hchain]
    rfl

/-- The last height of such a chain is its greatest. -/
theorem EmptyChain.le_height {height number : UInt64} {blocks : List (Block × String)}
    (h : EmptyChain config height blocks) (hnumber : number ∈ blocks.map (·.1.header.number)) :
    number ≤ height := by
  obtain ⟨earlier, hsplit⟩ := List.getLast?_eq_some_iff.mp h.last_eq
  have hnumbers := h.numbers
  rw [hsplit] at hnumber hnumbers
  rcases List.mem_append.mp hnumber with hearlier | hlast
  · obtain ⟨-, -, hbetween⟩ := List.pairwise_append.mp hnumbers
    exact UInt64.le_of_lt (hbetween number hearlier height List.mem_cons_self)
  · exact UInt64.le_of_eq (List.mem_singleton.mp hlast)

/-- The heights of the chain for which something is scheduled are the scheduled ones up to its last. -/
theorem EmptyChain.filter_heights {height : UInt64} {blocks : List (Block × String)}
    (h : EmptyChain config height blocks)
    (hall : ∀ scheduled ∈ registry.heights, scheduled ≤ height →
      ∃ x ∈ blocks, x.1.header.number = scheduled) :
    (blocks.map (·.1.header.number)).filter (· ∈ registry.heights) =
      registry.heights.filter (· ≤ height) := by
  -- Both lists ascend, so it is enough that they have the same members.
  refine List.Pairwise.eq_of_mem_iff (h.numbers.filter _) (registry.heights_pairwise.filter _)
    fun number => ?_
  simp only [List.mem_filter, decide_eq_true_eq]
  constructor
  · rintro ⟨hnumber, hscheduled⟩
    exact ⟨hscheduled, h.le_height hnumber⟩
  · rintro ⟨hscheduled, hle⟩
    obtain ⟨x, hx, rfl⟩ := hall number hscheduled hle
    exact ⟨List.mem_map_of_mem hx, hscheduled⟩

/-- A plan tells the roots of the chain.  Its entries are the forks, heights ascending and those of one height
in the order they were added, and a trial run notes a root at each of them.  Any chain of blocks without
messages, on an empty store, that has a block at each scheduled height up to that of the entry and ends
there, is carried out and comes to that root. -/
theorem trial_agrees (config : ChainConfig) (forks : List MintFork) :
    let registry := MigrationRegistry.ofForks forks
    registry.plan.Pairwise (fun a b => a.height ≤ b.height) ∧
    (∀ height, registry.plan.filter (·.height = height) =
      (forks.filter (·.height = height)).map fun fork =>
        ⟨fork.height, MintFork.migrationName, none⟩) ∧
    (registry.trial registry.plan).1.map (fun entry => (entry.height, entry.name)) =
      registry.plan.map (fun entry => (entry.height, entry.name)) ∧
    ∀ entry ∈ (registry.trial registry.plan).1, ∃ root, entry.root = some root ∧
      ∀ (σ : Type) (executor : Executor σ) (w : World σ) (blocks : List (Block × String)),
        w.store = .empty → EmptyChain config entry.height blocks →
        (∀ fork ∈ forks, fork.height ≤ entry.height →
          ∃ x ∈ blocks, x.1.header.number = fork.height) →
        ∃ processed w', runOn (processChain config registry executor blocks) w = (.ok processed, w') ∧
          w'.store.root = root := by
  intro registry
  have hbootstraps : registry.Bootstraps := MigrationRegistry.bootstraps_ofForks forks
  have htrial := registry.trial_plan
  -- The order of the plan and its entries are facts on registries; the roots need the chain.
  refine ⟨registry.plan_pairwise, fun height => ?_, ?_, fun entry hentry => ?_⟩
  · rw [registry.filter_plan, MigrationRegistry.scheduledAt_ofForks, List.map_map]
    refine List.map_congr_left fun fork hfork => ?_
    obtain ⟨-, hheight⟩ := List.mem_filter.mp hfork
    rw [of_decide_eq_true hheight]
    rfl
  · rw [htrial, List.map_map]
    rfl
  · rw [htrial] at hentry
    obtain ⟨planned, -, rfl⟩ := List.mem_map.mp hentry
    refine ⟨_, rfl, fun σ executor w blocks hw hblocks hall => ?_⟩
    have hscheduled : ∀ scheduled ∈ registry.heights, scheduled ≤ planned.height →
        ∃ x ∈ blocks, x.1.header.number = scheduled := by
      intro scheduled hmem hle
      obtain ⟨fork, hfork, rfl⟩ := MigrationRegistry.mem_heights_ofForks hmem
      exact hall fork hfork hle
    -- The trial run and the chain both start from no accounts at all.
    have hstart : (Ledger.ofStore .empty).store.accounts = w.store.accounts := by
      rw [hw]
      rfl
    obtain ⟨processed, w', hchain, haccounts⟩ := processChain_nil executor hbootstraps
      hblocks.messages_eq hblocks.gasLimit_le hstart
    refine ⟨processed, w', hchain, Store.root_congr ?_⟩
    -- Both have run the scheduled heights up to the entry's, one after the other.
    rw [haccounts, ← hbootstraps.accounts_tryAll _ rfl, hblocks.filter_heights hscheduled]

/-- Two forks of one height, and one before them that was added in between. -/
def severalForks : List MintFork :=
  [⟨5, .ofNat 3, 1000⟩, ⟨2, .ofNat 4, 7⟩, ⟨5, .ofNat 6, 0⟩]

/-- Blocks at the heights of the forks, and at two others. -/
def quietBlocks : List (Block × String) :=
  [1, 2, 4, 5].map fun number => (⟨.simple number (.ofNat 8), []⟩, "import")

/-- The chain with these blocks ends in the root that the plan notes at its last entries. -/
theorem trial_agrees_quiet :
    let registry := MigrationRegistry.ofForks severalForks
    ∃ entry ∈ (registry.trial registry.plan).1, entry.height = 5 ∧
      ∃ processed w', runOn (processChain .devnet registry .null quietBlocks) (.ofStore .empty ()) =
        (.ok processed, w') ∧ entry.root = some w'.store.root := by
  intro registry
  obtain ⟨-, -, hentries, hroots⟩ := trial_agrees .devnet severalForks
  have hplan : registry.plan.map (fun entry => (entry.height, entry.name)) =
      [2, 5, 5].map (·, MintFork.migrationName) := by decide +kernel
  -- The plan notes its last entry at the height of the last fork.
  have hlast : (5, MintFork.migrationName) ∈
      (registry.trial registry.plan).1.map (fun entry => (entry.height, entry.name)) := by
    rw [hentries, hplan]
    exact List.mem_map_of_mem (by decide)
  obtain ⟨entry, hentry, hsame⟩ := List.mem_map.mp hlast
  have hheight : entry.height = 5 := congrArg Prod.fst hsame
  obtain ⟨root, hroot, hchain⟩ := hroots entry hentry
  rw [hheight] at hchain
  obtain ⟨processed, w', hrun, hroot'⟩ := hchain Unit .null (.ofStore .empty ()) quietBlocks rfl
    ⟨by decide, by decide, by decide, rfl⟩ (by decide)
  exact ⟨entry, hentry, hheight, processed, w', hrun, hroot.trans (congrArg some hroot'.symm)⟩

end Step

end BridgeMint
