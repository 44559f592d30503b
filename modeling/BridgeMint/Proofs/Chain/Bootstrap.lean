import BridgeMint.Proofs.Chain.Forks
import BridgeMint.Proofs.Mint.Instruction
import BridgeMint.Proofs.Word

/-!
# Installing the mint contract

What a fork writes is what is read from the contract afterwards, whatever its account held before: the
owner and the limit that the chain's parameters name.  It changes the code and two words of that account
and nothing else, so installing the contract once more changes nothing.
-/

namespace BridgeMint

/-- A payload is read as an instruction exactly if it is in their language. -/
theorem Step.exists_readInstruction_iff {σ : Type} {w : World σ} {sender receiver : Address}
    {payload : Bytes} :
    (∃ instruction, (runOn (readInstruction sender receiver payload) w).1 = .ok (some instruction)) ↔
      Instruction.IsReadable w.store sender receiver payload := by
  constructor
  · rintro ⟨instruction, h⟩
    obtain ⟨hreadable, -⟩ := Instruction.read_eq_ok (readInstruction_eq_some.mp h)
    exact hreadable
  · intro h
    obtain ⟨instruction, hread⟩ := h.exists_read
    exact ⟨instruction, readInstruction_eq_some.mpr hread⟩

namespace MintFork

/-! ## The contract after the fork -/

/-- The installed contract tells the owner and the limit that the fork names. -/
theorem mintState?_install (fork : MintFork) (s : Store) :
    (fork.install s).mintState? = some ⟨fork.owner, fork.limit⟩ := by
  obtain ⟨-, -, howner, hlimit⟩ := fork.contract_install s
  refine Store.mintState?_eq_some.mpr ⟨?_, ?_⟩
  · rw [Store.codeHash, get?_install, if_pos rfl]
    rfl
  · -- The owner and the limit are stored as words, and are read back from them.
    rw [howner, Address.ofWord_toWord]
    exact congrArg (MintState.mk fork.owner) hlimit.symm

/-- Installing the contract where it is installed already changes nothing. -/
theorem installed_installed (fork : MintFork) (r : AccountRecord) :
    fork.installed (fork.installed r) = fork.installed r := by
  have hstorage : (fork.installed (fork.installed r)).storage = (fork.installed r).storage := by
    refine SortedMap.ext_get? fun key => ?_
    rw [get?_installed]
    -- The two slots get the words they have, and the others keep theirs.
    split
    · next hlimit => rw [get?_installed, if_pos hlimit]
    · next hlimit =>
      split
      · next howner => rw [get?_installed, if_neg hlimit, if_pos howner]
      · rfl
  exact congrArg (AccountRecord.mk _ _) hstorage

/-- Running the fork once more leaves all accounts as they are. -/
theorem accounts_install_install (fork : MintFork) (s : Store) :
    (fork.install (fork.install s)).accounts = (fork.install s).accounts := by
  refine SortedMap.ext_get? fun a => ?_
  rw [get?_install, record_install, if_pos rfl, installed_installed, get?_install]
  split <;> rfl

/-- The contract keeps its nonce, its balance and its other words. -/
theorem contract_install_rest (fork : MintFork) (s : Store) :
    (fork.install s).nonce MintContract.address = s.nonce MintContract.address ∧
      (fork.install s).balance MintContract.address = s.balance MintContract.address ∧
      ∀ key, key ≠ MintContract.ownerSlot → key ≠ MintContract.limitSlot →
        (fork.install s).word MintContract.address key = s.word MintContract.address key := by
  have hrecord := fork.record_install s MintContract.address
  rw [if_pos rfl] at hrecord
  refine ⟨?_, ?_, fun key howner hlimit => ?_⟩
  · rw [Store.nonce, hrecord]
    rfl
  · rw [Store.balance, hrecord]
    rfl
  · rw [Store.word, hrecord, word_installed, if_neg hlimit, if_neg howner]
    rfl

end MintFork

/-! ## The registry of a chain -/

namespace MigrationRegistry

/-- The registry installs the contract at the fork's height with its owner and its limit, and does nothing
else. -/
structure OnlyInstalls (registry : MigrationRegistry) (fork : MintFork) : Prop where
  heights_eq : registry.heights = [fork.height]
  toList_eq : registry.toList = [fork.migration]
  mintState?_eq : ∀ source ledger,
    (registry.execute fork.height source ledger).store.mintState? = some ⟨fork.owner, fork.limit⟩
  /-- The owner mints within the limit, and nobody else does. -/
  accepts : ∀ (σ : Type) (w : World σ) source sender payload, payload.length = 65 →
    (payload.getD 64 0 = 0 ∨ payload.getD 64 0 = 1) →
      ((∃ instruction, (Step.runOn (Step.readInstruction sender MintContract.address payload)
          (w.withLedger (registry.execute fork.height source w.toLedger))).1 = .ok (some instruction)) ↔
        sender = fork.owner ∧ Bytes.bigEndianValue (payload.take 32) ≤ fork.limit.toNat)
  /-- Other accounts stay as they are. -/
  others : ∀ source ledger a, a ≠ MintContract.address →
    (registry.execute fork.height source ledger).store.accounts.get? a = ledger.store.accounts.get? a
  /-- Of the contract's account, only the code and two words change. -/
  contract_rest : ∀ source ledger,
    (registry.execute fork.height source ledger).store.nonce MintContract.address =
        ledger.store.nonce MintContract.address ∧
      (registry.execute fork.height source ledger).store.balance MintContract.address =
        ledger.store.balance MintContract.address ∧
      ∀ key, key ≠ MintContract.ownerSlot → key ≠ MintContract.limitSlot →
        (registry.execute fork.height source ledger).store.word MintContract.address key =
          ledger.store.word MintContract.address key
  /-- Running the height once more leaves the accounts as they are. -/
  again : ∀ source source' ledger,
    (registry.execute fork.height source' (registry.execute fork.height source ledger)).store.accounts =
      (registry.execute fork.height source ledger).store.accounts
  elsewhere : ∀ height source ledger, height ≠ fork.height →
    registry.execute height source ledger = ledger

/-- The registry to which nothing but the fork has been added only installs the contract. -/
theorem onlyInstalls_append (fork : MintFork) : (empty.append fork.migration).OnlyInstalls fork := by
  have hstore : ∀ source ledger,
      ((empty.append fork.migration).execute fork.height source ledger).store =
        fork.install ledger.store := by
    intro source ledger
    rw [MintFork.execute_append_empty, if_pos rfl]
    rfl
  -- At its height running the registry is installing, so each part is one of the facts above; elsewhere
  -- nothing is scheduled.
  refine ⟨rfl, rfl, fun source ledger => ?_, fun σ w source sender payload hlength htag => ?_,
    fun source ledger a ha => ?_, fun source ledger => ?_, fun source source' ledger => ?_,
    fun height source ledger hne => ?_⟩
  · rw [hstore]
    exact fork.mintState?_install ledger.store
  · rw [Step.exists_readInstruction_iff, World.store_withLedger, hstore]
    exact Instruction.isReadable_iff (fork.mintState?_install _) sender hlength htag
  · rw [hstore, MintFork.get?_install, if_neg ha]
  · rw [hstore]
    exact fork.contract_install_rest ledger.store
  · rw [hstore, hstore]
    exact fork.accounts_install_install ledger.store
  · rw [MintFork.execute_append_empty, if_neg hne]

/-- From the parameters of a chain to its contract.  Without an activation height nothing is scheduled; with
one, an owner other than zero and a limit must be named.  Then the contract is installed at that height, and
says what the parameters say, whatever its account held before. -/
theorem ofConfig_bootstraps (config : ChainConfig) :
    (config.mint.bind (·.activationBlock) = none → ofConfig config = .ok .empty) ∧
    ∀ mint height, config.mint = some mint → mint.activationBlock = some height →
      ((mint.owner = none ∨ mint.owner = some .zero) →
        ofConfig config = .error (.fork .ownerMissing)) ∧
      ∀ owner, mint.owner = some owner → owner ≠ .zero →
        (mint.limit = none → ofConfig config = .error (.fork .limitMissing)) ∧
        ∀ limit, mint.limit = some limit →
          ∃ registry, ofConfig config = .ok registry ∧
            registry.OnlyInstalls ⟨height, owner, limit⟩ := by
  refine ⟨fun hnone => ?_, fun mint height hmint hheight => ⟨fun howner => ?_,
    fun owner howner hzero => ?_⟩⟩
  · unfold ofConfig MintFork.ofConfig
    cases hmint : config.mint with
    | none => rfl
    | some mint =>
      -- Then it is the height that is missing.
      rw [hmint] at hnone
      have hheight : mint.activationBlock = none := hnone
      simp only [hheight]
  · unfold ofConfig MintFork.ofConfig
    -- The owner is looked at before the limit, and the zero address counts as none.
    rcases howner with howner | howner
    · simp only [hmint, hheight, howner]
    · have hzero : (FixedBytes.zero : Address).isZero = true := (AccountRecord.isZero_iff _).mpr rfl
      simp only [hmint, hheight, howner, hzero, if_true]
  · -- With a usable owner only the limit can be missing; with both, the fork is all that is scheduled.
    have husable : ¬ owner.isZero = true := fun h => hzero ((AccountRecord.isZero_iff owner).mp h)
    refine ⟨fun hlimit => ?_, fun limit hlimit => ?_⟩
    · unfold ofConfig MintFork.ofConfig
      simp only [hmint, hheight, howner, if_neg husable, hlimit]
    · refine ⟨empty.append (MintFork.mk height owner limit).migration, ?_, onlyInstalls_append _⟩
      unfold ofConfig MintFork.ofConfig
      simp only [hmint, hheight, howner, if_neg husable, hlimit]

/-- A store in which other code stands at the contract's address, with words in the contract's slots and in
another one. -/
def occupiedStore : Store :=
  (Store.withBalances [(MintContract.address, .ofNat 5)]).after
    [.setCode MintContract.address [0xfe], .setWord MintContract.address MintContract.ownerSlot (.ofUInt64 8),
      .setWord MintContract.address MintContract.limitSlot (.ofUInt64 9),
      .setWord MintContract.address (.ofUInt64 7) (.ofUInt64 10)]

/-- A chain whose contract may mint nothing drops the word of the limit, and its owner mints nothing. -/
theorem ofConfig_bootstraps_occupied :
    ∃ registry, ofConfig (ChainConfig.devnet.withMint 5 (.ofNat 3) 0) = .ok registry ∧
      (registry.execute 5 "import" (.ofStore occupiedStore)).store.mintState? = some ⟨.ofNat 3, 0⟩ ∧
      (registry.execute 5 "import" (.ofStore occupiedStore)).store.word MintContract.address
        (.ofUInt64 7) = .ofUInt64 10 ∧
      (∃ instruction, (Step.runOn (Step.readInstruction (.ofNat 3) MintContract.address
          (Instruction.encodePayload 0 (.ofUInt64 5) .tron))
          (World.withLedger (.ofStore occupiedStore ()) (registry.execute 5 "import"
            (.ofStore occupiedStore)))).1 = .ok (some instruction)) ∧
      registry.execute 6 "import" (.ofStore occupiedStore) = .ofStore occupiedStore := by
  obtain ⟨-, hscheduled⟩ := ofConfig_bootstraps (ChainConfig.devnet.withMint 5 (.ofNat 3) 0)
  obtain ⟨-, howner⟩ := hscheduled _ _ rfl rfl
  obtain ⟨-, hlimit⟩ := howner _ rfl (by decide)
  obtain ⟨registry, hregistry, hinstalls⟩ := hlimit _ rfl
  obtain ⟨-, -, hwords⟩ := hinstalls.contract_rest "import" (.ofStore occupiedStore)
  refine ⟨registry, hregistry, hinstalls.mintState?_eq _ _, ?_, ?_,
    hinstalls.elsewhere 6 _ _ (by decide)⟩
  · rw [hwords _ (by decide) (by decide)]
    decide +kernel
  · exact (hinstalls.accepts Unit (.ofStore occupiedStore ()) "import" _ _ rfl (by decide)).mpr
      ⟨rfl, by decide⟩

end MigrationRegistry

end BridgeMint
