import BridgeMint.Proofs.Mint.Metered

/-!
# What a message does to the mint contract

A message adds logs of its own transaction only, and what is left to mint goes down by what they tell: a
mint leaves one log, and everything else leaves the contract alone.
-/

namespace BridgeMint

namespace Store

/-- Since the store was `b`, logs of its transaction have been added, and they tell how much was
minted. -/
def Tracked (b t : Store) : Prop :=
  ∃ new, t.logs = b.logs ++ new ∧ (∀ log ∈ new, log.txIndex = b.txIndex) ∧ b.Metered t new

/-- What leaves the contract alone mints nothing. -/
theorem Spares.tracked {b t : Store} (h : b.Spares t) : b.Tracked t := by
  obtain ⟨hcontract, -, ⟨new, hlogs, -, hnew⟩, -⟩ := h
  refine ⟨new, hlogs, fun log hlog => ?_, metered_of_mintContract_eq hcontract fun log hlog hmint => ?_⟩
  · obtain ⟨htx, -⟩ := hnew log hlog
    exact htx
  · -- A log of a mint stands in the name of the contract.
    obtain ⟨-, hother⟩ := hnew log hlog
    obtain ⟨hcontract, -⟩ := hmint
    exact hother hcontract

/-- Adding to a balance leaves the contract, the logs and the selected transaction alone. -/
theorem contract_addBalance {s t : Store} {a : Address} {amount : UInt256}
    (h : s.addBalance a amount = .ok t) :
    t.mintContract = s.mintContract ∧ t.logs = s.logs ∧ t.txIndex = s.txIndex := by
  obtain ⟨x, -, rfl⟩ := addBalance_eq_ok.mp h
  refine ⟨mintContract_write fun _ => .inl ⟨x, rfl⟩, ?_, ?_⟩
  · exact logs_write s a _
  · exact txIndex_write s a _

/-- Adding to a balance mints nothing. -/
theorem Tracked.addBalance {b t u : Store} (h : b.Tracked t) {a : Address} {amount : UInt256}
    (hadd : t.addBalance a amount = .ok u) : b.Tracked u := by
  obtain ⟨new, hlogs, hnew, hmetered⟩ := h
  obtain ⟨hcontract, hkept, -⟩ := contract_addBalance hadd
  have hnone : t.Metered u [] :=
    metered_of_mintContract_eq hcontract fun _ h => (List.not_mem_nil h).elim
  have hboth := hmetered.trans hnone
  rw [List.append_nil] at hboth
  exact ⟨new, hkept.trans hlogs, hnew, hboth⟩

/-- The contract's digest, as read for an account that may not exist. -/
theorem mintDigest_of_codeHash {s : Store}
    (h : s.codeHash MintContract.address = MintContract.codeHash) :
    s.mintDigest = MintContract.codeHash := by
  unfold codeHash at h
  unfold mintDigest record
  cases hget : s.accounts.get? MintContract.address with
  | none =>
    -- The digest of an account that does not exist reads as zero.
    rw [hget] at h
    exact absurd h.symm MintContract.codeHash_ne_zero
  | some r =>
    rw [hget] at h
    exact h

end Store

namespace Step

variable {σ : Type} {executor : Executor σ} {context : ExecutionContext} {message : Message}

/-! ## Calls -/

/-- Moving value leaves the contract alone, even if it is the recipient. -/
theorem ValueMoved.spares {b s t : Store} (h : ValueMoved message s t) (hs : b.Spares s) :
    b.Spares t := by
  obtain ⟨recipient, u, -, hsub, hadd⟩ := h
  exact (hs.subBalance hsub).addBalance hadd

/-- So does a call, if its executor does. -/
theorem CallBody.spares {b s t : Store} {succeeded : Bool}
    (h : CallBody executor context message s succeeded t) (he : executor.SparesMint)
    (hs : s.Reachable) (hb : b.Spares s) : b.Spares t := by
  cases h with
  | creation _ => exact hb
  | transfer hmoved => exact hmoved.spares hb
  | @code v request hmoved =>
    obtain ⟨ops, hops, hstore⟩ := he context request v (hmoved.reachable hs)
    rw [hstore]
    exact (hmoved.spares hb).after hops

/-- And so do the nonce and the snapshot at its start. -/
theorem spares_beforeCall {b s : Store} (message : Message) (hs : b.Spares s) :
    b.Spares (beforeCall message s).2 := by
  have hcounted : b.Spares (s.setNonce message.sender (message.nonce + 1)) :=
    hs.write fun _ => .inr ⟨_, rfl⟩
  exact hcounted.move .snapshot trivial

/-! ## Mints -/

/-- Setting the limit and counting the nonce keep the digest, the code and the owner. -/
theorem contract_beforeMint (instruction : Instruction) (next : UInt64) (s : Store) :
    (beforeMint instruction next s).mintDigest = s.mintDigest ∧
      (beforeMint instruction next s).code MintContract.address = s.code MintContract.address ∧
      (beforeMint instruction next s).word MintContract.address MintContract.ownerSlot =
        s.word MintContract.address MintContract.ownerSlot := by
  have hslots : MintContract.ownerSlot ≠ MintContract.limitSlot := by decide
  -- Counting the nonce is no write to the contract, even if the contract is the sender.
  have hcounted : (beforeMint instruction next s).mintContract =
      (s.setWord MintContract.address MintContract.limitSlot
        instruction.nextLimit.toWord).mintContract := by
    rw [beforeMint, Store.setNonce_eq_write]
    exact Store.mintContract_write fun _ => .inr ⟨next, rfl⟩
  simp only [Store.mintContract, Store.setWord_eq_write, Store.record_write, if_true,
    Prod.mk.injEq] at hcounted
  obtain ⟨hdigest, hcode, hstorage⟩ := hcounted
  refine ⟨hdigest, hcode, ?_⟩
  simp only [Store.word, AccountRecord.word, hstorage, Amendment.apply]
  rw [AccountRecord.get?_withWord, if_neg hslots]

theorem logs_beforeMint (instruction : Instruction) (next : UInt64) (s : Store) :
    (beforeMint instruction next s).logs = s.logs ∧
      (beforeMint instruction next s).txIndex = s.txIndex := by
  rw [beforeMint, Store.setNonce_eq_write, Store.setWord_eq_write]
  simp

/-- A mint changes one word of the contract's storage, and its log tells by how much. -/
theorem metered_mint {s u : Store} {instruction : Instruction} {next number : UInt64}
    (hmint : message.mintIn? s = some instruction)
    (hadd : (beforeMint instruction next s).addBalance instruction.sender instruction.amount =
      .ok u) :
    s.Metered (u.addLog (instruction.log number)) [u.placed (instruction.log number)] := by
  obtain ⟨-, -, hinstalled, hlimit⟩ := mintIn?_eq_some hmint
  -- Crediting the sender leaves the contract as it was made before.
  obtain ⟨hcredited, -, -⟩ := Store.contract_addBalance hadd
  obtain ⟨hdigest, hcode, howner⟩ := contract_beforeMint instruction next s
  have howned := Store.owner_congr hcredited
  simp only [Store.mintContract, Prod.mk.injEq] at hcredited
  obtain ⟨hsameDigest, hsameCode, -⟩ := hcredited
  refine ⟨?_, ?_, ?_, ?_, ?_⟩
  · exact hsameDigest.trans hdigest
  · exact hsameCode.trans hcode
  · exact howned.trans howner
  · -- What is left is the difference that was checked before, and the log tells the amount.
    show u.mintLimit.toNat + _ = _
    rw [mintedIn_placed, mintLimit_of_mint hadd]
    exact UInt256.checkedSub_eq_some_iff.mp hlimit
  · intro hmissing
    exact absurd (Store.mintDigest_of_codeHash hinstalled) hmissing

/-- A mint leaves one log, of its own transaction. -/
theorem tracked_mint {b s u : Store} {instruction : Instruction} {next number : UInt64}
    (hb : b.Spares s) (hlogs : s.logs = b.logs) (hmint : message.mintIn? s = some instruction)
    (hadd : (beforeMint instruction next s).addBalance instruction.sender instruction.amount =
      .ok u) : b.Tracked (u.addLog (instruction.log number)) := by
  obtain ⟨-, hlogsU, htxU⟩ := Store.contract_addBalance hadd
  obtain ⟨hlogsS, htxS⟩ := logs_beforeMint instruction next s
  refine ⟨[u.placed (instruction.log number)], ?_, ?_, ?_⟩
  · rw [Store.logs_addLog, hlogsU, hlogsS, hlogs]
  · intro log hlog
    rw [List.mem_singleton.mp hlog]
    show u.txIndex = b.txIndex
    rw [htxU, htxS, hb.txIndex_eq]
  · have hspared : b.Metered s [] :=
      Store.metered_of_mintContract_eq hb.mintContract_eq fun _ h => (List.not_mem_nil h).elim
    exact hspared.trans (metered_mint hmint hadd)

/-! ## Messages -/

/-- Whichever way a message runs, it tracks what it mints. -/
theorem Body.tracked {b s t : Store} {succeeded : Bool}
    (h : Body executor context message s succeeded t) (he : executor.SparesMint)
    (hs : s.Reachable) (hb : b.Spares s) (hlogs : s.logs = b.logs) : b.Tracked t := by
  cases h with
  | @unpaidMint instruction _ =>
    -- Only the nonce is counted.
    have hcounted : b.Spares (s.setNonce instruction.sender (s.nonce instruction.sender + 1)) :=
      hb.write fun _ => .inr ⟨_, rfl⟩
    exact hcounted.tracked
  | mint hmint _ hadd => exact tracked_mint hb hlogs hmint hadd
  | call hbody =>
    exact (hbody.spares he (beforeCall_reachable message hs) (spares_beforeCall message hb)).tracked
  | failedCall hbody hrevert =>
    -- Going back does not bring anything of the contract back either.
    have hfailed := hbody.spares he (beforeCall_reachable message hs) (spares_beforeCall message hb)
    exact (hfailed.move (.revertTo hrevert) trivial).tracked

/-- Whichever way a message runs, it does so by operations. -/
theorem Body.reachable {s t : Store} {succeeded : Bool} {Allowed : Store → Operation → Prop}
    (h : Body executor context message s succeeded t) (he : executor.Confined Allowed)
    (hs : s.Reachable) : t.Reachable := by
  cases h with
  | @unpaidMint instruction _ =>
    exact hs.perform (.setNonce instruction.sender (s.nonce instruction.sender + 1))
  | @mint instruction next u _ _ hadd =>
    have hbefore : (beforeMint instruction next s).Reachable :=
      (hs.perform (.setWord MintContract.address MintContract.limitSlot
        instruction.nextLimit.toWord)).perform (.setNonce instruction.sender next)
    exact (hbefore.addBalance hadd).perform (.addLog (instruction.log context.block.number))
  | call hbody => exact hbody.reachable he (beforeCall_reachable message hs)
  | failedCall hbody hrevert =>
    exact (hbody.reachable he (beforeCall_reachable message hs)).revertTo hrevert

/-- A message that is carried out leaves a store that there can be. -/
theorem applyMessage_reachable {config : ChainConfig} {outcome : Outcome} {w w' : World σ}
    {Allowed : Store → Operation → Prop} (hw : w.store.Reachable) (he : executor.Confined Allowed)
    (h : runOn (applyMessage config executor context message) w = (.ok outcome, w')) :
    w'.store.Reachable := by
  obtain ⟨cost, s, t, u, meter, -, hbuy, hbody, -, hrefund, hfee⟩ := applyMessage_ok h
  have ht := hbody.reachable he (hw.subBalance hbuy)
  exact (ht.addBalance hrefund).addBalance hfee

/-- A message that starts with an empty journal tracks what it mints. -/
theorem applyMessage_tracked {config : ChainConfig} {outcome : Outcome} {w w' : World σ}
    (hw : w.store.Reachable) (hjournal : w.store.journal = .empty) (he : executor.SparesMint)
    (h : runOn (applyMessage config executor context message) w = (.ok outcome, w')) :
    w.store.Tracked w'.store ∧ w'.store.Reachable := by
  obtain ⟨cost, s, t, u, meter, -, hbuy, hbody, -, hrefund, hfee⟩ := applyMessage_ok h
  -- Buying the gas writes a balance; the invariant holds from then on.
  have hs : s.Reachable := hw.subBalance hbuy
  have hspares : w.store.Spares s := (Store.Spares.refl hjournal).subBalance hbuy
  have hlogs : s.logs = w.store.logs := by
    obtain ⟨x, -, rfl⟩ := Store.subBalance_eq_ok.mp hbuy
    exact Store.logs_write _ _ _
  have hran := hbody.tracked he hs hspares hlogs
  have hreachable := hbody.reachable he hs
  exact ⟨(hran.addBalance hrefund).addBalance hfee, (hreachable.addBalance hrefund).addBalance hfee⟩

end Step

end BridgeMint
