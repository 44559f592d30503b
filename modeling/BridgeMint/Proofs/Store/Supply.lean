import BridgeMint.Mint.Contract
import BridgeMint.Proofs.Store.Revert
import BridgeMint.Proofs.UInt256.Value
import BridgeMint.Proofs.UInt256.Word

/-!
# What there is in all

The sum of all balances, and what is left to mint.  Writing a balance changes the sum by the difference,
the other writes keep it, and stores that agree have the same sum.
-/

namespace BridgeMint

namespace Store

/-- The sum of all balances. -/
def totalBalance (s : Store) : Nat :=
  s.accounts.sumOf (·.header.balance.toNat)

/-- The number in the mint contract's slot of what is left to mint. -/
def mintLimit (s : Store) : UInt256 :=
  .ofWord (s.word MintContract.address MintContract.limitSlot)

/-- All there is: what the accounts hold, and what may still be minted. -/
def supply (s : Store) : Nat :=
  s.totalBalance + s.mintLimit.toNat

/-! ## Writes -/

theorem accounts_write (s : Store) (a : Address) (m : Amendment) :
    (s.write a m).accounts = s.accounts.insert a (m.apply (s.record a)) := by
  refine SortedMap.ext_get? fun a' => ?_
  rw [get?_write, SortedMap.get?_insert]

/-- All that a write does. -/
theorem write_eq (s : Store) (a : Address) (m : Amendment) :
    s.write a m =
      { s with
        accounts := s.accounts.insert a (m.apply (s.record a))
        journal := ⟨s.writeNotes a m ++ s.journal.newestFirst⟩ } := by
  -- Field by field, these are the equations for a write.
  have haccounts := accounts_write s a m
  have hjournal := journal_write s a m
  have hsnapshots := snapshots_write s a m
  have hnext := nextSnapshot_write s a m
  have hlogs := logs_write s a m
  have htx := txIndex_write s a m
  cases h : s.write a m
  simp_all

theorem word_write (s : Store) (a a' : Address) (m : Amendment) (key : Word) :
    (s.write a m).word a' key =
      if a' = a then (m.apply (s.record a)).word key else s.word a' key := by
  simp only [word, record_write]
  split <;> rfl

theorem balance_write (s : Store) (a a' : Address) (m : Amendment) :
    (s.write a m).balance a' =
      if a' = a then (m.apply (s.record a)).header.balance else s.balance a' := by
  simp only [balance, record_write]
  split <;> rfl

theorem nonce_write (s : Store) (a a' : Address) (m : Amendment) :
    (s.write a m).nonce a' =
      if a' = a then (m.apply (s.record a)).header.nonce else s.nonce a' := by
  simp only [nonce, record_write]
  split <;> rfl

@[simp] theorem nonce_setWord (s : Store) (a a' : Address) (key value : Word) :
    (s.setWord a key value).nonce a' = s.nonce a' :=
  record_write_congr (m := .word key value) (·.header.nonce) rfl a'

@[simp] theorem balance_setWord (s : Store) (a a' : Address) (key value : Word) :
    (s.setWord a key value).balance a' = s.balance a' :=
  record_write_congr (m := .word key value) (·.header.balance) rfl a'

/-- Setting a word changes this word and no other. -/
theorem word_setWord (s : Store) (a a' : Address) (key key' value : Word) :
    (s.setWord a key value).word a' key' =
      if a' = a ∧ key' = key then value else s.word a' key' := by
  rw [setWord_eq_write, word_write]
  by_cases ha : a' = a
  · simp only [ha, if_true, true_and, Amendment.apply, AccountRecord.word_withWord]
    rfl
  · simp only [ha, if_false, false_and]

@[simp] theorem word_setNonce (s : Store) (a a' : Address) (nonce : UInt64) (key : Word) :
    (s.setNonce a nonce).word a' key = s.word a' key :=
  record_write_congr (m := .nonce nonce) (·.word key) rfl a'

/-- A write changes the sum by what it changes of the balance. -/
theorem totalBalance_write (s : Store) (a : Address) (m : Amendment) :
    (s.write a m).totalBalance + (s.balance a).toNat =
      s.totalBalance + (m.apply (s.record a)).header.balance.toNat := by
  have hsum := SortedMap.sumOf_insert (fun r : AccountRecord => r.header.balance.toNat) s.accounts a
    (m.apply (s.record a))
  -- An account that does not exist holds nothing.
  have hheld : ((s.accounts.get? a).map fun r => r.header.balance.toNat).getD 0 =
      (s.balance a).toNat := by
    simp only [balance, record]
    cases s.accounts.get? a with
    | none => exact UInt256.toNat_zero.symm
    | some r => rfl
  rw [hheld] at hsum
  simp only [totalBalance, accounts_write]
  exact hsum

/-- No account holds more than all of them. -/
theorem balance_le_totalBalance (s : Store) (a : Address) :
    (s.balance a).toNat ≤ s.totalBalance := by
  cases hexists : s.hasAccount a with
  | true =>
    -- One summand is at most the sum.
    exact SortedMap.le_sumOf (fun r : AccountRecord => r.header.balance.toNat)
      (get?_of_hasAccount hexists)
  | false =>
    have hzero : (s.balance a).toNat = 0 := by
      rw [balance, record_of_not_hasAccount hexists]
      exact UInt256.toNat_zero
    omega

/-! ## Sums and differences -/

/-- Balances and nothing else have been written. -/
structure Rebalanced (s t : Store) : Prop where
  mintLimit_eq : t.mintLimit = s.mintLimit
  nonce_eq : ∀ a, t.nonce a = s.nonce a
  word_eq : ∀ a key, t.word a key = s.word a key
  nextSnapshot_eq : t.nextSnapshot = s.nextSnapshot

/-- Writes of balances one after another keep everything else. -/
theorem Rebalanced.trans {s t u : Store} (h : s.Rebalanced t) (h' : t.Rebalanced u) :
    s.Rebalanced u :=
  ⟨h'.mintLimit_eq.trans h.mintLimit_eq, fun a => (h'.nonce_eq a).trans (h.nonce_eq a),
    fun a key => (h'.word_eq a key).trans (h.word_eq a key),
    h'.nextSnapshot_eq.trans h.nextSnapshot_eq⟩

/-- Writing a balance keeps everything else. -/
theorem rebalanced_write (s : Store) (a : Address) (b : UInt256) :
    s.Rebalanced (s.write a (.balance b)) := by
  have hword : ∀ a' key, (s.write a (.balance b)).word a' key = s.word a' key := fun a' key =>
    record_write_congr (·.word key) rfl a'
  refine ⟨?_, ?_, hword, nextSnapshot_write _ _ _⟩
  · simp only [mintLimit, hword]
  · exact record_write_congr (·.header.nonce) rfl

/-- Adding to a balance adds the amount to the sum. -/
theorem totalBalance_addBalance {s t : Store} {a : Address} {amount : UInt256}
    (h : s.addBalance a amount = .ok t) :
    t.totalBalance = s.totalBalance + amount.toNat ∧ s.Rebalanced t := by
  obtain ⟨b, hb, rfl⟩ := addBalance_eq_ok.mp h
  have hsum := UInt256.checkedAdd_eq_some_iff.mp hb
  have htotal := totalBalance_write s a (.balance b)
  simp only [Amendment.apply, AccountRecord.withBalance] at htotal
  exact ⟨by omega, rebalanced_write s a b⟩

/-- Taking from a balance takes the amount from the sum. -/
theorem totalBalance_subBalance {s t : Store} {a : Address} {amount : UInt256}
    (h : s.subBalance a amount = .ok t) :
    t.totalBalance + amount.toNat = s.totalBalance ∧ s.Rebalanced t := by
  obtain ⟨b, hb, rfl⟩ := subBalance_eq_ok.mp h
  have hdifference := UInt256.checkedSub_eq_some_iff.mp hb
  have htotal := totalBalance_write s a (.balance b)
  simp only [Amendment.apply, AccountRecord.withBalance] at htotal
  exact ⟨by omega, rebalanced_write s a b⟩

/-- What is left after taking is the exact difference. -/
theorem balance_subBalance {s t : Store} {a : Address} {amount : UInt256}
    (h : s.subBalance a amount = .ok t) : (t.balance a).toNat + amount.toNat = (s.balance a).toNat := by
  obtain ⟨b, hb, rfl⟩ := subBalance_eq_ok.mp h
  rw [balance_write, if_pos rfl]
  exact UInt256.checkedSub_eq_some_iff.mp hb

/-- Adding succeeds as long as everything together fits. -/
theorem addBalance_of_fits {s : Store} {amount : UInt256}
    (h : s.totalBalance + amount.toNat < UInt256.size) (a : Address) :
    ∃ t, s.addBalance a amount = .ok t := by
  cases hsum : (s.balance a).checkedAdd amount with
  | some b => exact ⟨_, addBalance_eq_ok.mpr ⟨b, hsum, rfl⟩⟩
  | none =>
    -- No account holds more than all accounts together.
    have hover := UInt256.checkedAdd_eq_none_iff.mp hsum
    have hle := balance_le_totalBalance s a
    omega

/-- Taking succeeds if the balance covers the amount. -/
theorem subBalance_of_le {s : Store} {a : Address} {amount : UInt256}
    (h : amount.toNat ≤ (s.balance a).toNat) : ∃ t, s.subBalance a amount = .ok t := by
  cases hdifference : (s.balance a).checkedSub amount with
  | some b => exact ⟨_, subBalance_eq_ok.mpr ⟨b, hdifference, rfl⟩⟩
  | none =>
    have hlt := UInt256.checkedSub_eq_none_iff.mp hdifference
    omega

/-! ## The other writes -/

theorem totalBalance_write_of_balance_eq {s : Store} {a : Address} {m : Amendment}
    (h : (m.apply (s.record a)).header.balance = s.balance a) :
    (s.write a m).totalBalance = s.totalBalance := by
  have htotal := totalBalance_write s a m
  rw [h] at htotal
  omega

theorem totalBalance_setNonce (s : Store) (a : Address) (n : UInt64) :
    (s.setNonce a n).totalBalance = s.totalBalance :=
  totalBalance_write_of_balance_eq (m := .nonce n) rfl

theorem totalBalance_setWord (s : Store) (a : Address) (key value : Word) :
    (s.setWord a key value).totalBalance = s.totalBalance :=
  totalBalance_write_of_balance_eq (m := .word key value) rfl

theorem mintLimit_setNonce (s : Store) (a : Address) (n : UInt64) :
    (s.setNonce a n).mintLimit = s.mintLimit := by
  rw [mintLimit, mintLimit, word_setNonce]

theorem mintLimit_setWord (s : Store) (limit : UInt256) :
    (s.setWord MintContract.address MintContract.limitSlot limit.toWord).mintLimit = limit := by
  rw [mintLimit, word_setWord, if_pos ⟨rfl, rfl⟩, UInt256.ofWord_toWord]

/-! ## Agreement -/

/-- Records of stores that agree have the same core, whether the account exists or not. -/
theorem Agree.record {s t : Store} (h : s.Agree t) (a : Address) :
    (s.record a).core = (t.record a).core := by
  have ha := h.accounts a
  simp only [Store.record]
  cases hs : s.accounts.get? a <;> cases ht : t.accounts.get? a <;> simp_all

theorem Agree.totalBalance {s t : Store} (h : s.Agree t) : s.totalBalance = t.totalBalance := by
  refine SortedMap.sumOf_congr fun a => ?_
  have ha := congrArg (Option.map fun core => core.1.balance.toNat) (h.accounts a)
  simp only [Option.map_map] at ha
  exact ha

/-- Stores that agree have the same words. -/
theorem Agree.word {s t : Store} (h : s.Agree t) (a : Address) (key : Word) :
    s.word a key = t.word a key := by
  have hcore := h.record a
  simp only [AccountRecord.core, Prod.mk.injEq] at hcore
  obtain ⟨-, hstorage, -⟩ := hcore
  simp only [Store.word, AccountRecord.word, hstorage]

theorem Agree.mintLimit {s t : Store} (h : s.Agree t) : s.mintLimit = t.mintLimit := by
  simp only [Store.mintLimit, h.word]

end Store

end BridgeMint
