import BridgeMint.Proofs.Chain.Block

/-!
# The mint quota of a chain

Over a whole chain, no more is minted than the fork allows, and the logs in the receipts account for
every unit of it.  Blocks come with growing numbers, so the fork runs once at most: before it there is no
contract, and after it nothing but mints changes the contract.
-/

namespace BridgeMint

/-- The logs in all receipts of a chain of blocks. -/
def chainLogs (processed : List (Block × BlockOutcome)) : List Log :=
  processed.flatMap fun entry => Receipt.allLogs entry.2.receipts

@[simp] theorem chainLogs_cons (entry : Block × BlockOutcome) (processed : List (Block × BlockOutcome)) :
    chainLogs (entry :: processed) = Receipt.allLogs entry.2.receipts ++ chainLogs processed := rfl

/-- The blocks have growing numbers, and the messages of each can be counted. -/
structure Ascending (blocks : List (Block × String)) : Prop where
  numbers : blocks.Pairwise fun x y => x.1.header.number < y.1.header.number
  counts : ∀ x ∈ blocks, x.1.messages.length < 2 ^ 32

/-- The blocks that follow the first one. -/
theorem Ascending.tail {x : Block × String} {blocks : List (Block × String)}
    (h : Ascending (x :: blocks)) : Ascending blocks :=
  ⟨h.numbers.of_cons, fun y hy => h.counts y (List.mem_cons_of_mem _ hy)⟩

/-- The first block has a smaller number than all that follow it. -/
theorem Ascending.head_lt {x : Block × String} {blocks : List (Block × String)}
    (h : Ascending (x :: blocks)) {y : Block × String} (hy : y ∈ blocks) :
    x.1.header.number < y.1.header.number := by
  obtain ⟨hfirst, -⟩ := List.pairwise_cons.mp h.numbers
  exact hfirst y hy

section Split

variable {earlier later : List (Block × String)}

theorem Ascending.left (h : Ascending (earlier ++ later)) : Ascending earlier := by
  obtain ⟨hearlier, -, -⟩ := List.pairwise_append.mp h.numbers
  exact ⟨hearlier, fun x hx => h.counts x (List.mem_append_left _ hx)⟩

theorem Ascending.right (h : Ascending (earlier ++ later)) : Ascending later := by
  obtain ⟨-, hlater, -⟩ := List.pairwise_append.mp h.numbers
  exact ⟨hlater, fun x hx => h.counts x (List.mem_append_right _ hx)⟩

/-- A block of the first part has a smaller number than one of the second. -/
theorem Ascending.lt_of_append (h : Ascending (earlier ++ later)) {x y : Block × String}
    (hx : x ∈ earlier) (hy : y ∈ later) : x.1.header.number < y.1.header.number := by
  obtain ⟨-, -, hbetween⟩ := List.pairwise_append.mp h.numbers
  exact hbetween x hx y hy

end Split

theorem MintFork.migrated_of_ne {fork : MintFork} {height : UInt64} (h : height ≠ fork.height)
    (s : Store) : fork.migrated height s = s :=
  if_neg h

theorem MintFork.migrated_height (fork : MintFork) (s : Store) :
    fork.migrated fork.height s = fork.install s :=
  if_pos rfl

/-- An account without code is not taken for the contract. -/
theorem Store.mintDigest_of_code_eq_nil {s : Store} (hs : s.Reachable)
    (h : s.code MintContract.address = []) : s.mintDigest ≠ MintContract.codeHash := by
  have hdigest : s.mintDigest = .keccak256 (s.code MintContract.address) :=
    (hs.sound.record MintContract.address).codeHash_eq
  -- The contract has code, and so its digest differs from that of no code.
  rw [hdigest, h]
  exact Ne.symm MintContract.codeHash_ne_emptyDigest

namespace Step

variable {σ : Type}

/-- Carries out blocks one after another; each comes with who asked for it. -/
def processChain (config : ChainConfig) (registry : MigrationRegistry) (executor : Executor σ) :
    List (Block × String) → Step σ (List (Block × BlockOutcome))
  | [] => return []
  | (block, source) :: rest => do
    let outcome ← processBlock config registry executor block source
    let processed ← processChain config registry executor rest
    return (block, outcome) :: processed

section Chain

variable {config : ChainConfig} {registry : MigrationRegistry} {executor : Executor σ}
  {fork : MintFork} {w w' : World σ} {blocks : List (Block × String)}
  {processed : List (Block × BlockOutcome)}

/-- A chain is carried out if its first block is, and then the others from where that one ended. -/
theorem processChain_cons {block : Block} {source : String}
    (h : runOn (processChain config registry executor ((block, source) :: blocks)) w =
      (.ok processed, w')) :
    ∃ outcome rest v, runOn (processBlock config registry executor block source) w = (.ok outcome, v) ∧
      runOn (processChain config registry executor blocks) v = (.ok rest, w') ∧
      processed = (block, outcome) :: rest := by
  unfold processChain at h
  obtain ⟨outcome, v, hblock, h⟩ := bind_ok.mp h
  obtain ⟨rest, u, hrest, h⟩ := bind_ok.mp h
  obtain ⟨rfl, rfl⟩ := pure_ok.mp h
  exact ⟨outcome, rest, v, hblock, hrest, rfl⟩

/-- What is processed is the blocks, in order. -/
theorem processChain_blocks
    (h : runOn (processChain config registry executor blocks) w = (.ok processed, w')) :
    processed.map (·.1) = blocks.map (·.1) := by
  induction blocks generalizing w processed with
  | nil =>
    obtain ⟨rfl, rfl⟩ := pure_ok.mp h
    rfl
  | cons x blocks ih =>
    obtain ⟨outcome, rest, v, -, hrest, rfl⟩ := processChain_cons h
    rw [List.map_cons, List.map_cons, ih hrest]

variable (hfork : MintFork.ofConfig config = .ok (some fork))
  (hregistry : MigrationRegistry.ofConfig config = .ok registry) (he : executor.SparesMint)
  (hw : w.store.Reachable)

include hfork hregistry he hw

/-! ### One block -/

/-- A block at another height than that of the fork only mints. -/
theorem processBlock_metered_of_ne {block : Block} {source : String} {outcome : BlockOutcome}
    (hcount : block.messages.length < 2 ^ 32) (hne : block.header.number ≠ fork.height)
    (h : runOn (processBlock config registry executor block source) w = (.ok outcome, w')) :
    w.store.Metered w'.store (Receipt.allLogs outcome.receipts) := by
  obtain ⟨hmetered, -⟩ := processBlock_metered hfork hregistry he hw hcount h
  rw [MintFork.migrated_of_ne hne] at hmetered
  -- Dropping the logs of the block before does not touch the contract.
  exact hmetered.congr rfl rfl

/-- As long as the contract is not installed, such a block does not mint and does not install it. -/
theorem processBlock_uninstalled {block : Block} {source : String} {outcome : BlockOutcome}
    (hcount : block.messages.length < 2 ^ 32) (hne : block.header.number ≠ fork.height)
    (hdigest : w.store.mintDigest ≠ MintContract.codeHash)
    (h : runOn (processBlock config registry executor block source) w = (.ok outcome, w')) :
    (∀ log ∈ Receipt.allLogs outcome.receipts, ¬ log.IsMint) ∧
      w'.store.mintDigest ≠ MintContract.codeHash := by
  -- A block that only mints, mints nothing where there is no contract to do so.
  have hmetered := processBlock_metered_of_ne hfork hregistry he hw hcount hne h
  refine ⟨hmetered.uninstalled hdigest, ?_⟩
  rw [hmetered.digest_eq]
  exact hdigest

/-! ### Many blocks -/

/-- A chain of blocks ends in a store that can come about. -/
theorem processChain_reachable (hblocks : Ascending blocks)
    (h : runOn (processChain config registry executor blocks) w = (.ok processed, w')) :
    w'.store.Reachable := by
  induction blocks generalizing w processed with
  | nil =>
    obtain ⟨rfl, rfl⟩ := pure_ok.mp h
    exact hw
  | cons x blocks ih =>
    obtain ⟨outcome, rest, v, hblock, hrest, rfl⟩ := processChain_cons h
    have hcount := hblocks.counts x List.mem_cons_self
    obtain ⟨-, hv⟩ := processBlock_metered hfork hregistry he hw hcount hblock
    exact ih hv hblocks.tail hrest

/-- Blocks without the fork among them only mint. -/
theorem processChain_metered (hblocks : Ascending blocks)
    (hheights : ∀ x ∈ blocks, x.1.header.number ≠ fork.height)
    (h : runOn (processChain config registry executor blocks) w = (.ok processed, w')) :
    w.store.Metered w'.store (chainLogs processed) := by
  induction blocks generalizing w processed with
  | nil =>
    obtain ⟨rfl, rfl⟩ := pure_ok.mp h
    exact .refl _
  | cons x blocks ih =>
    obtain ⟨outcome, rest, v, hblock, hrest, rfl⟩ := processChain_cons h
    have hcount := hblocks.counts x List.mem_cons_self
    obtain ⟨-, hv⟩ := processBlock_metered hfork hregistry he hw hcount hblock
    -- The first block only mints, and so do the others, which start from where it ended.
    have hfirst := processBlock_metered_of_ne hfork hregistry he hw hcount
      (hheights x List.mem_cons_self) hblock
    have hlater := ih hv hblocks.tail (fun y hy => hheights y (List.mem_cons_of_mem _ hy)) hrest
    exact hfirst.trans hlater

/-- Below the height of the fork there is nothing that mints. -/
theorem processChain_below_fork (hblocks : Ascending blocks)
    (hdigest : w.store.mintDigest ≠ MintContract.codeHash)
    (h : runOn (processChain config registry executor blocks) w = (.ok processed, w')) :
    ∀ entry ∈ processed, entry.1.header.number < fork.height →
      ∀ log ∈ Receipt.allLogs entry.2.receipts, ¬ log.IsMint := by
  induction blocks generalizing w processed with
  | nil =>
    obtain ⟨rfl, rfl⟩ := pure_ok.mp h
    intro entry hentry
    exact (List.not_mem_nil hentry).elim
  | cons x blocks ih =>
    obtain ⟨outcome, rest, v, hblock, hrest, rfl⟩ := processChain_cons h
    have hcount := hblocks.counts x List.mem_cons_self
    intro entry hentry hbelow
    rcases List.mem_cons.mp hentry with rfl | hentry
    · -- The first block itself is below the fork.
      have hne : x.1.header.number ≠ fork.height := UInt64.ne_of_lt hbelow
      obtain ⟨hlogs, -⟩ :=
        processBlock_uninstalled hfork hregistry he hw hcount hne hdigest hblock
      exact hlogs
    · -- The first block is below the others, so the fork has not run in it either.
      have hlater : entry.1 ∈ blocks.map (·.1) := by
        rw [← processChain_blocks hrest]
        exact List.mem_map_of_mem hentry
      obtain ⟨y, hy, hsame⟩ := List.mem_map.mp hlater
      have hlt : x.1.header.number < entry.1.header.number := by
        rw [← hsame]
        exact hblocks.head_lt hy
      have hne : x.1.header.number ≠ fork.height :=
        UInt64.ne_of_lt (UInt64.lt_trans hlt hbelow)
      obtain ⟨-, hv⟩ := processBlock_metered hfork hregistry he hw hcount hblock
      obtain ⟨-, hdigest'⟩ :=
        processBlock_uninstalled hfork hregistry he hw hcount hne hdigest hblock
      exact ih hv hblocks.tail hdigest' hrest entry hentry hbelow

/-- Once the fork has run, what was minted and what is left make up its limit. -/
theorem processChain_with_fork (hblocks : Ascending blocks)
    (hdigest : w.store.mintDigest ≠ MintContract.codeHash)
    (hrun : ∃ x ∈ blocks, x.1.header.number = fork.height)
    (h : runOn (processChain config registry executor blocks) w = (.ok processed, w')) :
    w'.store.mintLimit.toNat + mintedIn (chainLogs processed) = fork.limit.toNat := by
  induction blocks generalizing w processed with
  | nil =>
    obtain ⟨x, hx, -⟩ := hrun
    exact (List.not_mem_nil hx).elim
  | cons x blocks ih =>
    obtain ⟨outcome, rest, v, hblock, hrest, rfl⟩ := processChain_cons h
    have hcount := hblocks.counts x List.mem_cons_self
    obtain ⟨hmetered, hv⟩ := processBlock_metered hfork hregistry he hw hcount hblock
    by_cases heq : x.1.header.number = fork.height
    · -- The fork runs here, and the blocks after it are above its height.
      rw [heq, MintFork.migrated_height] at hmetered
      have hheights : ∀ y ∈ blocks, y.1.header.number ≠ fork.height := by
        intro y hy
        rw [← heq]
        exact Ne.symm (UInt64.ne_of_lt (hblocks.head_lt hy))
      have hlater := processChain_metered hfork hregistry he hv hblocks.tail hheights hrest
      obtain ⟨-, -, -, hlimit⟩ := fork.contract_install w.store.clearLogs
      -- From the freshly installed contract on, all that is minted comes off the limit of the fork.
      rw [← hlimit]
      exact (hmetered.trans hlater).minted
    · -- The fork runs in a later block, and this one does not mint.
      obtain ⟨hlogs, hdigest'⟩ :=
        processBlock_uninstalled hfork hregistry he hw hcount heq hdigest hblock
      have hrun' : ∃ y ∈ blocks, y.1.header.number = fork.height := by
        obtain ⟨y, hy, hheight⟩ := hrun
        rcases List.mem_cons.mp hy with rfl | hy
        · exact absurd hheight heq
        · exact ⟨y, hy, hheight⟩
      have hminted := ih hv hblocks.tail hdigest' hrun' hrest
      rw [chainLogs_cons, mintedIn_append, mintedIn_eq_zero hlogs, Nat.zero_add]
      exact hminted

end Chain

/-- The quota of a chain that schedules the fork, started without code at the contract's address and run
by an executor that leaves the contract alone.  Below the height of the fork no receipt has the log of a
mint.  Once that height has been processed, what is left to mint and what the logs in all receipts tell
make up the limit of the fork, so no more than that is ever minted; and in all that follows the limit does
not grow, and the code and the owner stay. -/
theorem mint_quota {config : ChainConfig} {registry : MigrationRegistry} {executor : Executor σ}
    {fork : MintFork} {w w₁ w₂ : World σ} {earlier later : List (Block × String)}
    {processed₁ processed₂ : List (Block × BlockOutcome)}
    (hfork : MintFork.ofConfig config = .ok (some fork))
    (hregistry : MigrationRegistry.ofConfig config = .ok registry) (he : executor.SparesMint)
    (hw : w.store.Reachable) (hcode : w.store.code MintContract.address = [])
    (hblocks : Ascending (earlier ++ later))
    (h₁ : runOn (processChain config registry executor earlier) w = (.ok processed₁, w₁))
    (h₂ : runOn (processChain config registry executor later) w₁ = (.ok processed₂, w₂)) :
    (∀ entry ∈ processed₁, entry.1.header.number < fork.height →
        ∀ receipt ∈ entry.2.receipts, ∀ log ∈ receipt.logs, ¬ log.IsMint) ∧
      ((∃ x ∈ earlier, x.1.header.number = fork.height) →
        w₁.store.mintLimit.toNat + mintedIn (chainLogs processed₁) = fork.limit.toNat ∧
          mintedIn (chainLogs processed₁) ≤ fork.limit.toNat ∧
          w₂.store.mintLimit.toNat ≤ w₁.store.mintLimit.toNat ∧
          w₂.store.code MintContract.address = w₁.store.code MintContract.address ∧
          w₂.store.word MintContract.address MintContract.ownerSlot =
            w₁.store.word MintContract.address MintContract.ownerSlot) := by
  have hdigest := Store.mintDigest_of_code_eq_nil hw hcode
  refine ⟨?_, ?_⟩
  · -- A log in a receipt of a block is one of the logs of the block.
    have hbelow := processChain_below_fork hfork hregistry he hw hblocks.left hdigest h₁
    intro entry hentry hheight receipt hreceipt log hlog
    exact hbelow entry hentry hheight log (List.mem_flatMap.mpr ⟨receipt, hreceipt, hlog⟩)
  · -- After the fork: the blocks up to here tell what was minted, and the later ones only mint.
    intro hrun
    have hminted := processChain_with_fork hfork hregistry he hw hblocks.left hdigest hrun h₁
    -- The blocks that follow are above the height of the fork.
    have hheights : ∀ y ∈ later, y.1.header.number ≠ fork.height := by
      intro y hy
      obtain ⟨x, hx, hheight⟩ := hrun
      rw [← hheight]
      exact Ne.symm (UInt64.ne_of_lt (hblocks.lt_of_append hx hy))
    have hreachable := processChain_reachable hfork hregistry he hw hblocks.left h₁
    have hlater := processChain_metered hfork hregistry he hreachable hblocks.right hheights h₂
    -- What the later blocks mint comes off the limit, so it does not grow.
    have hdown := hlater.minted
    exact ⟨hminted, by omega, by omega, hlater.code_eq, hlater.owner_eq⟩

/-- A fork at the second block. -/
def sampleFork : MintFork := ⟨2, .ofNat 7, .ofNat 1000⟩

def sampleChain : ChainConfig := ChainConfig.devnet.withMint 2 (.ofNat 7) (.ofNat 1000)

def sampleBlock (number : UInt64) (messages : List Message) : Block × String :=
  (⟨.forChain sampleChain number (.ofNat 8), messages⟩, "sample")

/-- A transfer below the height of the fork, and a mint at it. -/
def sampleBlocks : List (Block × String) :=
  [sampleBlock 1 [(Message.call (.ofNat 7) (.ofNat 9) 0 30000 2).withValue 3],
    sampleBlock 2 [(Message.call (.ofNat 7) MintContract.address 1 200000 1).withData
      (Instruction.encodePayload (.ofNat 400) .zero .ethereum)]]

def sampleRegistry : MigrationRegistry := MigrationRegistry.empty.append sampleFork.migration

def sampleRun : Except LedgerError (List (Block × BlockOutcome)) × World Unit :=
  runOn (processChain sampleChain sampleRegistry Executor.null sampleBlocks)
    (.ofStore (Store.withBalances [(.ofNat 7, .ofNat 1000000)]) ())

/-- The blocks are accepted, and the mint leaves six hundred of the thousand. -/
theorem sampleRun_limit :
    sampleRun.1.isOk = true ∧ sampleRun.2.store.mintLimit.toNat = 600 := by
  decide +kernel

/-- So the receipts of these blocks tell that four hundred were minted. -/
theorem mint_quota_sample :
    ∃ processed, sampleRun.1 = .ok processed ∧ mintedIn (chainLogs processed) = 400 := by
  obtain ⟨hok, hlimit⟩ := sampleRun_limit
  obtain ⟨processed, hprocessed⟩ : ∃ processed, sampleRun.1 = .ok processed := by
    cases h : sampleRun.1 with
    | error e =>
      rw [h] at hok
      cases hok
    | ok processed => exact ⟨processed, rfl⟩
  have hfork : MintFork.ofConfig sampleChain = .ok (some sampleFork) := rfl
  have hregistry : MigrationRegistry.ofConfig sampleChain = .ok sampleRegistry := rfl
  have hcode : (Store.withBalances [(.ofNat 7, .ofNat 1000000)]).code MintContract.address = [] := rfl
  have hblocks : Ascending (sampleBlocks ++ []) := ⟨by decide, by decide⟩
  have hheight : ∃ x ∈ sampleBlocks, x.1.header.number = sampleFork.height :=
    ⟨sampleBlock 2 _, List.mem_cons_of_mem _ List.mem_cons_self, rfl⟩
  -- The run stays folded in what follows: evaluating it again would hash the contract's code.
  have hearlier : runOn (processChain sampleChain sampleRegistry Executor.null sampleBlocks)
      (.ofStore (Store.withBalances [(.ofNat 7, .ofNat 1000000)]) ()) =
        (.ok processed, sampleRun.2) := by
    unfold sampleRun at hprocessed ⊢
    rw [← hprocessed]
  have hlater : runOn (processChain sampleChain sampleRegistry Executor.null []) sampleRun.2 =
      (.ok [], sampleRun.2) := runOn_pure _ _
  obtain ⟨-, hquota⟩ := mint_quota hfork hregistry (Executor.confined_null _) (.withBalances _)
    hcode hblocks hearlier hlater
  obtain ⟨hminted, -⟩ := hquota hheight
  refine ⟨processed, hprocessed, ?_⟩
  have hall : sampleFork.limit.toNat = 1000 := rfl
  omega

end Step

end BridgeMint
