import BridgeMint.Proofs.Mint.Contract
import BridgeMint.Proofs.Mint.Untouched
import BridgeMint.Proofs.Transition.Balances

/-!
# Mints and their logs

What is left to mint goes down by exactly the amounts that the logs of mints tell, and nothing else about
the contract changes.  Without the contract there are no such logs.
-/

namespace BridgeMint

/-! ## Logs of mints -/

/-- The log stands under the contract's address and has the topic of mints. -/
def Log.IsMint (log : Log) : Prop :=
  log.address = MintContract.address ∧ Instruction.logTopic ∈ log.topics

instance (log : Log) : Decidable log.IsMint :=
  inferInstanceAs (Decidable (_ ∧ _))

/-- The amount that the log of a mint tells: the first word of its data. -/
def Log.mintAmount (log : Log) : Nat :=
  Bytes.bigEndianValue (log.data.take 32)

/-- The sum of the amounts that the logs of mints tell. -/
def mintedIn (logs : List Log) : Nat :=
  ((logs.filter fun log => decide log.IsMint).map Log.mintAmount).sum

@[simp] theorem mintedIn_append (logs logs' : List Log) :
    mintedIn (logs ++ logs') = mintedIn logs + mintedIn logs' := by
  simp [mintedIn]

/-- Without logs of mints nothing is minted. -/
theorem mintedIn_eq_zero {logs : List Log} (h : ∀ log ∈ logs, ¬ log.IsMint) : mintedIn logs = 0 := by
  have hnone : logs.filter (fun log => decide log.IsMint) = [] := by
    simpa using h
  rw [mintedIn, hnone]
  rfl

/-- The log of an instruction is a log of a mint and tells its amount, wherever it is placed. -/
theorem mintedIn_placed (s : Store) (instruction : Instruction) (number : UInt64) :
    mintedIn [s.placed (instruction.log number)] = instruction.amount.toNat := by
  have hmint : (s.placed (instruction.log number)).IsMint := ⟨rfl, List.mem_singleton.mpr rfl⟩
  have hamount : (s.placed (instruction.log number)).mintAmount = instruction.amount.toNat := by
    -- The amount is the first of the words in the data.
    show Bytes.bigEndianValue ((Instruction.logData _ _ _).take 32) = _
    rw [Instruction.logData, List.append_assoc, List.take_left' (UInt256.length_toBytes _),
      UInt256.bigEndianValue_toBytes]
  rw [mintedIn, List.filter_singleton, decide_eq_true hmint, cond_true, List.map_singleton,
    List.sum_singleton, hamount]

/-! ## Metering -/

namespace Store

/-- The digest of the code of the contract's account; that of no code, if there is no such account. -/
def mintDigest (s : Store) : Word :=
  (s.record MintContract.address).header.codeHash

/-- Between two stores, what is left to mint went down by what the logs tell, and the digest, the code
and the owner of the contract stayed. -/
structure Metered (s t : Store) (logs : List Log) : Prop where
  digest_eq : t.mintDigest = s.mintDigest
  code_eq : t.code MintContract.address = s.code MintContract.address
  owner_eq : t.word MintContract.address MintContract.ownerSlot =
    s.word MintContract.address MintContract.ownerSlot
  minted : t.mintLimit.toNat + mintedIn logs = s.mintLimit.toNat
  /-- Only the installed contract mints. -/
  uninstalled : s.mintDigest ≠ MintContract.codeHash → ∀ log ∈ logs, ¬ log.IsMint

/-- What two changes mint adds up, as their logs do. -/
theorem Metered.trans {s t u : Store} {logs logs' : List Log} (h : s.Metered t logs)
    (h' : t.Metered u logs') : s.Metered u (logs ++ logs') := by
  refine ⟨h'.digest_eq.trans h.digest_eq, h'.code_eq.trans h.code_eq, h'.owner_eq.trans h.owner_eq,
    ?_, ?_⟩
  · have hfirst := h.minted
    have hsecond := h'.minted
    rw [mintedIn_append]
    omega
  · -- The digest stays, so the contract is not installed later either.
    intro hdigest log hlog
    rcases List.mem_append.mp hlog with hlog | hlog
    · exact h.uninstalled hdigest log hlog
    · rw [← h.digest_eq] at hdigest
      exact h'.uninstalled hdigest log hlog

/-- Nothing about the contract changes, and none of the logs is of a mint. -/
theorem metered_of_mintContract_eq {s t : Store} {logs : List Log}
    (h : t.mintContract = s.mintContract) (hlogs : ∀ log ∈ logs, ¬ log.IsMint) :
    s.Metered t logs := by
  have hlimit := mintLimit_congr h
  have howner := owner_congr h
  simp only [mintContract, Prod.mk.injEq] at h
  obtain ⟨hdigest, hcode, -⟩ := h
  refine ⟨hdigest, hcode, howner, ?_, fun _ => hlogs⟩
  rw [hlimit, mintedIn_eq_zero hlogs, Nat.add_zero]

/-- All of this is read off the accounts. -/
theorem Metered.congr {s s' t t' : Store} {logs : List Log} (h : s.Metered t logs)
    (hs : s'.accounts = s.accounts) (ht : t'.accounts = t.accounts) : s'.Metered t' logs := by
  obtain ⟨accounts, _, _, _, _, _⟩ := s'
  obtain ⟨accounts', _, _, _, _, _⟩ := t'
  subst hs ht
  exact ⟨h.digest_eq, h.code_eq, h.owner_eq, h.minted, h.uninstalled⟩

theorem Metered.refl (s : Store) : s.Metered s [] :=
  metered_of_mintContract_eq rfl fun _ h => (List.not_mem_nil h).elim

end Store

end BridgeMint
