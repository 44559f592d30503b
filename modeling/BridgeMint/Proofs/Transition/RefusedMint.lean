import BridgeMint.Proofs.Transition.Message

/-!
# What a refused mint leaves behind

Two things can go wrong when an instruction is carried out: the sender's nonce may have no successor,
and the sender may hold so much already that the amount cannot be added.  The nonce is looked at before
anything is written, so nothing happens then.  The amount is added last: when that is refused, the
limit has been lowered and the nonce counted already.
-/

namespace BridgeMint

/-- Only the greatest nonce has no successor. -/
theorem nextNonce?_eq_none_iff {nonce : UInt64} :
    nextNonce? nonce = none ↔ nonce.toNat = 2 ^ 64 - 1 := by
  have hlt := nonce.toNat_lt
  simp only [nextNonce?, UInt64.size, ite_eq_right_iff, reduceCtorEq, imp_false]
  omega

/-- A credit is refused exactly if the sum of balance and amount does not fit, and the error names the
account. -/
theorem Store.addBalance_eq_error_iff {s : Store} {a : Address} {amount : UInt256}
    {cause : StoreError} : s.addBalance a amount = .error cause ↔
      cause = .balanceOverflow a ∧ UInt256.size ≤ (s.balance a).toNat + amount.toNat := by
  rw [addBalance, ← UInt256.checkedAdd_eq_none_iff]
  cases (s.balance a).checkedAdd amount <;> simp [eq_comm]

namespace Step

variable {σ : Type} {w : World σ} {instruction : Instruction}

/-! ## Before the amount is credited -/

/-- Lowering the limit and counting the nonce leave the balances alone. -/
theorem balance_beforeMint (instruction : Instruction) (next : UInt64) (s : Store) (a : Address) :
    (beforeMint instruction next s).balance a = s.balance a := by
  rw [beforeMint, Store.setNonce_eq_write]
  exact (Store.record_write_congr (m := .nonce next) (·.header.balance) rfl a).trans
    (Store.balance_setWord _ _ _ _ _)

/-- What is written before the amount is credited stands in the journal. -/
theorem journal_beforeMint_ne (instruction : Instruction) (next : UInt64) (s : Store) :
    (beforeMint instruction next s).journal ≠ s.journal := by
  rw [beforeMint, Store.setNonce_eq_write, Store.setWord_eq_write, Store.journal_write,
    Store.journal_write]
  -- Each write adds notes, so the journal is longer than it was.
  intro hsame
  have hlength := congrArg (fun j => j.newestFirst.length) hsame
  simp only [List.length_append, Store.writeNotes, List.length_cons] at hlength
  omega

/-! ## The two refusals -/

/-- Without a successor of the nonce nothing happens. -/
theorem runOn_applyInstruction_of_exhausted (context : ExecutionContext) (gas : UInt64)
    (h : (w.store.nonce instruction.sender).toNat = 2 ^ 64 - 1) :
    runOn (applyInstruction context instruction gas) w =
      (.error (.nonceExhausted instruction.sender (w.store.nonce instruction.sender)), w) := by
  unfold applyInstruction
  rw [runOn_bind_of_ok (runOn_store w)]
  simp only [nextNonce?_eq_none_iff.mpr h]
  rfl

/-- When the amount does not fit, the limit stays lowered and the nonce stays counted. -/
theorem runOn_applyInstruction_of_overflow (context : ExecutionContext) (gas : UInt64)
    {next : UInt64} (hnext : nextNonce? (w.store.nonce instruction.sender) = some next)
    (h : UInt256.size ≤ (w.store.balance instruction.sender).toNat + instruction.amount.toNat) :
    runOn (applyInstruction context instruction gas) w =
      (.error (.store (.balanceOverflow instruction.sender)),
        w.withStore (beforeMint instruction next w.store)) := by
  have hadd : (beforeMint instruction next w.store).addBalance instruction.sender
      instruction.amount = .error (.balanceOverflow instruction.sender) := by
    rw [Store.addBalance_eq_error_iff, balance_beforeMint]
    exact ⟨rfl, h⟩
  unfold applyInstruction
  rw [runOn_bind_of_ok (runOn_store w)]
  simp only [hnext]
  rw [runOn_bind_of_ok (runOn_change _ _), runOn_bind_of_ok (runOn_change _ _)]
  -- Both writes are done when the credit is refused.
  refine runOn_bind_of_error ?_
  show runOn (attempt _) (w.withStore (beforeMint instruction next w.store)) = _
  unfold attempt
  rw [runOn_bind_of_ok (runOn_store _)]
  simp only [World.store_withStore, hadd]
  rfl

/-- Carrying out an instruction is refused exactly if the sender's nonce is the last one or the amount
does not fit with what the sender holds.  In the first case nothing has changed; in the second the limit
has been lowered and the nonce counted, and the journal shows it. -/
theorem applyInstruction_refused (context : ExecutionContext) (instruction : Instruction)
    (gas : UInt64) (w : World σ) :
    ((∃ e, (runOn (applyInstruction context instruction gas) w).1 = .error e) ↔
        (w.store.nonce instruction.sender).toNat = 2 ^ 64 - 1 ∨
          2 ^ 256 ≤ (w.store.balance instruction.sender).toNat + instruction.amount.toNat) ∧
      ((w.store.nonce instruction.sender).toNat = 2 ^ 64 - 1 →
        runOn (applyInstruction context instruction gas) w =
          (.error (.nonceExhausted instruction.sender (w.store.nonce instruction.sender)), w)) ∧
      ((w.store.nonce instruction.sender).toNat ≠ 2 ^ 64 - 1 →
        2 ^ 256 ≤ (w.store.balance instruction.sender).toNat + instruction.amount.toNat →
        ∃ v, runOn (applyInstruction context instruction gas) w =
            (.error (.store (.balanceOverflow instruction.sender)), v) ∧
          v.store = beforeMint instruction (w.store.nonce instruction.sender + 1) w.store ∧
          v.store.journal ≠ w.store.journal) := by
  have hoverflow : (w.store.nonce instruction.sender).toNat ≠ 2 ^ 64 - 1 →
      2 ^ 256 ≤ (w.store.balance instruction.sender).toNat + instruction.amount.toNat →
      runOn (applyInstruction context instruction gas) w =
        (.error (.store (.balanceOverflow instruction.sender)),
          w.withStore (beforeMint instruction (w.store.nonce instruction.sender + 1) w.store)) := by
    intro hnonce hover
    have hlt := (w.store.nonce instruction.sender).toNat_lt
    have hnext : nextNonce? (w.store.nonce instruction.sender) =
        some (w.store.nonce instruction.sender + 1) :=
      if_pos (by simp only [UInt64.size]; omega)
    exact runOn_applyInstruction_of_overflow context gas hnext hover
  refine ⟨⟨?_, ?_⟩, runOn_applyInstruction_of_exhausted context gas, fun hnonce hover =>
    ⟨_, hoverflow hnonce hover, rfl, journal_beforeMint_ne _ _ _⟩⟩
  · -- If neither holds, the instruction is carried out.
    rintro ⟨e, hrefused⟩
    by_contra hneither
    obtain ⟨hnonce, hfits⟩ := not_or.mp hneither
    cases hnext : nextNonce? (w.store.nonce instruction.sender) with
    | none => exact hnonce (nextNonce?_eq_none_iff.mp hnext)
    | some next =>
      cases hadd : (beforeMint instruction next w.store).addBalance instruction.sender
          instruction.amount with
      | error cause =>
        obtain ⟨-, hover⟩ := Store.addBalance_eq_error_iff.mp hadd
        rw [balance_beforeMint] at hover
        exact hfits hover
      | ok u =>
        obtain ⟨v, hrun⟩ := exists_runOn_applyInstruction_of_credit context gas hnext hadd
        rw [hrun] at hrefused
        cases hrefused
  · intro h
    -- The nonce comes first, so the second condition is met with a successor at hand.
    by_cases hnonce : (w.store.nonce instruction.sender).toNat = 2 ^ 64 - 1
    · exact ⟨_, congrArg Prod.fst (runOn_applyInstruction_of_exhausted context gas hnonce)⟩
    · exact ⟨_, congrArg Prod.fst (hoverflow hnonce (h.resolve_left hnonce))⟩

/-- With the last nonce, account 7's mint of four hundred changes nothing. -/
theorem applyInstruction_refused_exhausted :
    let instruction : Instruction := ⟨.ofNat 7, .ofNat 400, .ofNat 600, .ofUInt64 5, .tron, []⟩
    let w : World Unit := .ofStore (mintingStore.setNonce (.ofNat 7) 0xffffffffffffffff) ()
    runOn (applyInstruction (.ofBlock (.simple 1 (.ofNat 8))) instruction 0) w =
      (.error (.nonceExhausted (.ofNat 7) 0xffffffffffffffff), w) := by
  obtain ⟨-, hexhausted, -⟩ := applyInstruction_refused (.ofBlock (.simple 1 (.ofNat 8)))
    ⟨.ofNat 7, .ofNat 400, .ofNat 600, .ofUInt64 5, .tron, []⟩ 0
    (.ofStore (mintingStore.setNonce (.ofNat 7) 0xffffffffffffffff) () : World Unit)
  exact hexhausted (by decide)

/-- A store in which account 7 may mint a thousand but holds as much as there can be. -/
def fullStore : Store :=
  (⟨1, .ofNat 7, .ofNat 1000⟩ : MintFork).install (Store.withBalances [(.ofNat 7, .max)])

/-- Account 7's instruction to mint four hundred is read, and refused when it is carried out; yet six
hundred are left to mint afterwards, and account 7's nonce is one. -/
theorem applyInstruction_refused_halfway :
    ∃ (instruction : Instruction) (v : World Unit),
      (runOn (readInstruction (.ofNat 7) MintContract.address
          (Instruction.encodePayload (.ofNat 400) (.ofUInt64 5) .tron))
          (.ofStore fullStore ())).1 = .ok (some instruction) ∧
        runOn (applyInstruction (.ofBlock (.simple 1 (.ofNat 8))) instruction 0)
            (.ofStore fullStore ()) = (.error (.store (.balanceOverflow (.ofNat 7))), v) ∧
        fullStore.mintLimit.toNat = 1000 ∧ v.store.mintLimit.toNat = 600 ∧
        fullStore.nonce (.ofNat 7) = 0 ∧ v.store.nonce (.ofNat 7) = 1 ∧
        v.store.accounts ≠ fullStore.accounts ∧ v.store.journal ≠ fullStore.journal := by
  -- The instruction is well-formed and from the owner, so it is read.
  have hreadable : Instruction.IsReadable fullStore (.ofNat 7) MintContract.address
      (Instruction.encodePayload (.ofNat 400) (.ofUInt64 5) .tron) :=
    ⟨rfl, rfl, by decide, rfl, by decide, by decide⟩
  obtain ⟨instruction, hread⟩ := hreadable.exists_read
  obtain ⟨-, hrenders⟩ := Instruction.read_eq_ok hread
  have hamount : instruction.amount.toNat = 400 := hrenders.amount_eq
  have hleft : instruction.nextLimit.toNat + instruction.amount.toNat = 1000 :=
    hrenders.nextLimit_eq
  have hnonce : fullStore.nonce (.ofNat 7) = 0 := rfl
  have hbalance : (fullStore.balance (.ofNat 7)).toNat = UInt256.size - 1 := by decide
  have hnext : nextNonce? (fullStore.nonce instruction.sender) = some 1 := by
    rw [hrenders.sender_eq]
    rfl
  -- But its sender holds the greatest balance there is.
  have hover : UInt256.size ≤
      (fullStore.balance instruction.sender).toNat + instruction.amount.toNat := by
    rw [hrenders.sender_eq, hbalance, hamount]
    decide
  have hrun := runOn_applyInstruction_of_overflow (w := .ofStore fullStore ())
    (.ofBlock (.simple 1 (.ofNat 8))) 0 hnext hover
  rw [hrenders.sender_eq] at hrun
  have hcounted : (beforeMint instruction 1 fullStore).nonce (.ofNat 7) = 1 := by
    rw [beforeMint, hrenders.sender_eq, Store.setNonce_eq_write, Store.nonce_write, if_pos rfl]
    rfl
  have hlimit : (beforeMint instruction 1 fullStore).mintLimit.toNat = 600 := by
    rw [beforeMint, Store.mintLimit_setNonce, Store.mintLimit_setWord]
    omega
  have haccounts : (beforeMint instruction 1 fullStore).accounts ≠ fullStore.accounts := by
    -- The nonce is kept in the accounts.
    intro hsame
    have hsameNonce : (beforeMint instruction 1 fullStore).nonce (.ofNat 7) =
        fullStore.nonce (.ofNat 7) :=
      congrArg (fun accounts => ((accounts.get? (.ofNat 7)).getD .fresh).header.nonce) hsame
    rw [hcounted, hnonce] at hsameNonce
    cases hsameNonce
  refine ⟨instruction, _, readInstruction_eq_some.mpr hread, hrun, by decide, ?_⟩
  rw [World.store_withStore]
  exact ⟨hlimit, hnonce, hcounted, haccounts, journal_beforeMint_ne _ _ _⟩

end Step

end BridgeMint
