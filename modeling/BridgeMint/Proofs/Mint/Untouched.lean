import BridgeMint.Proofs.Execution.Executor

/-!
# Leaving the mint contract alone

Programs that neither write the contract's code or storage nor log in its name leave it as it was, even
if they go back to snapshots of the same transaction: what can be taken back was noted since the
transaction started, and none of these notes is about the contract.
-/

namespace BridgeMint

/-! ## Operations -/

/-- Operations that leave the mint contract's code, storage and logs alone, and the transaction that
logs are added for. -/
def Operation.SparesMint : Operation → Prop
  | .setCode a _ | .setWord a _ _ => a ≠ MintContract.address
  | .addLog log => log.address ≠ MintContract.address
  | .selectTx _ | .clearLogs | .commit => False
  | _ => True

/-- The executor leaves the mint contract alone. -/
def Executor.SparesMint {σ : Type} (executor : Executor σ) : Prop :=
  executor.Confined fun _ op => op.SparesMint

namespace Store

/-- What there is of the mint contract: its digest, its code and its storage. -/
def mintContract (s : Store) : Word × Bytes × SortedMap Word Word :=
  ((s.record MintContract.address).header.codeHash, (s.record MintContract.address).code,
    (s.record MintContract.address).storage)

/-- What is left to mint is read off the contract. -/
theorem mintLimit_congr {s t : Store} (h : s.mintContract = t.mintContract) :
    s.mintLimit = t.mintLimit := by
  simp only [mintContract, Prod.mk.injEq] at h
  obtain ⟨-, -, hstorage⟩ := h
  simp only [mintLimit, word, AccountRecord.word, hstorage]

/-- So is the owner. -/
theorem owner_congr {s t : Store} (h : s.mintContract = t.mintContract) :
    s.word MintContract.address MintContract.ownerSlot =
      t.word MintContract.address MintContract.ownerSlot := by
  simp only [mintContract, Prod.mk.injEq] at h
  obtain ⟨-, -, hstorage⟩ := h
  simp only [word, AccountRecord.word, hstorage]

/-- The contract of a store in which its account does not exist. -/
def noContract : Word × Bytes × SortedMap Word Word :=
  (AccountRecord.fresh.header.codeHash, AccountRecord.fresh.code, AccountRecord.fresh.storage)

/-- Without its account the contract is as blank as in every such store. -/
theorem mintContract_of_not_hasAccount {s : Store}
    (h : s.hasAccount MintContract.address = false) : s.mintContract = noContract := by
  rw [mintContract, record_of_not_hasAccount h]
  rfl

/-- Writing another account, or a balance or a nonce, leaves the contract alone. -/
theorem mintContract_write {s : Store} {a : Address} {m : Amendment}
    (h : a = MintContract.address → (∃ b, m = .balance b) ∨ ∃ n, m = .nonce n) :
    (s.write a m).mintContract = s.mintContract := by
  simp only [mintContract, record_write]
  split
  · next heq =>
    rcases h heq.symm with ⟨b, rfl⟩ | ⟨n, rfl⟩ <;> rw [heq] <;> rfl
  · rfl

end Store

/-! ## Notes -/

/-- A note whose taking back leaves the contract `contract` alone. -/
def Change.SparesMint (contract : Word × Bytes × SortedMap Word Word) : Change → Prop
  | .codeSet a _ | .wordSet a _ _ => a ≠ MintContract.address
  | .created a => a = MintContract.address → contract = Store.noContract
  | _ => True

/-- Whether a note is of a log. -/
def Change.isLogAdded : Change → Bool
  | .logAdded _ => true
  | _ => false

namespace Store

/-! ## New logs -/

/-- A log with its transaction and its place. -/
def placed (s : Store) (log : Log) : Log :=
  { log with txIndex := s.txIndex, logIndex := .ofNat s.logs.length }

theorem logs_addLog (s : Store) (log : Log) : (s.addLog log).logs = s.logs ++ [s.placed log] := rfl

/-- Since the store was `b`, logs of its transaction have been added, none of them in the contract's
name.  As many are noted in the journal of `s`, so taking back its notes drops no other log. -/
def NewLogs (b s : Store) : Prop :=
  ∃ new, s.logs = b.logs ++ new ∧ new.length = s.journal.newestFirst.countP Change.isLogAdded ∧
    ∀ log ∈ new, log.txIndex = b.txIndex ∧ log.address ≠ MintContract.address

theorem NewLogs.refl {b : Store} (hb : b.journal = .empty) : b.NewLogs b := by
  refine ⟨[], (List.append_nil _).symm, ?_, ?_⟩
  · rw [hb]
    rfl
  · intro log hlog
    exact (List.not_mem_nil hlog).elim

/-- A write adds no log and notes none. -/
theorem NewLogs.write {b s : Store} (h : b.NewLogs s) (a : Address) (m : Amendment) :
    b.NewLogs (s.write a m) := by
  obtain ⟨new, hlogs, hlength, hnew⟩ := h
  refine ⟨new, ?_, ?_, hnew⟩
  · rw [logs_write]
    exact hlogs
  · -- None of the notes of a write is of a log.
    have hnone : (s.writeNotes a m).countP Change.isLogAdded = 0 := by
      unfold writeNotes
      cases m <;> cases s.hasAccount a <;> rfl
    rw [journal_write, List.countP_append, hnone, Nat.zero_add]
    exact hlength

/-- A log that is not in the contract's name may be added. -/
theorem NewLogs.addLog {b s : Store} (h : b.NewLogs s) {log : Log} (htx : s.txIndex = b.txIndex)
    (hlog : log.address ≠ MintContract.address) : b.NewLogs (s.addLog log) := by
  obtain ⟨new, hlogs, hlength, hnew⟩ := h
  refine ⟨new ++ [s.placed log], ?_, ?_, ?_⟩
  · rw [logs_addLog, hlogs, List.append_assoc]
  · show _ = (Change.logAdded s.txIndex :: s.journal.newestFirst).countP Change.isLogAdded
    rw [List.length_append, hlength, List.countP_cons]
    rfl
  · intro log' hlog'
    rcases List.mem_append.mp hlog' with hlog' | hlog'
    · exact hnew log' hlog'
    · rw [List.mem_singleton.mp hlog']
      exact ⟨htx, hlog⟩

/-- Taking back the newest change drops one of the new logs or none. -/
theorem NewLogs.undo {b s : Store} (h : b.NewLogs s) {c : Change} {older : List Change}
    (hjournal : s.journal.newestFirst = c :: older) :
    b.NewLogs ({ s with journal := ⟨older⟩ }.undo c) := by
  obtain ⟨new, hlogs, hlength, hnew⟩ := h
  rw [hjournal, List.countP_cons] at hlength
  rcases undo_cases c with ⟨a, rfl⟩ | ⟨i, rfl⟩ | ⟨a, haddress, -, hundo⟩
  · exact ⟨new, hlogs, hlength, hnew⟩
  · -- The count says that there is a new log, and the last log is one.
    have hne : new ≠ [] := by
      intro hnil
      rw [hnil] at hlength
      simp [Change.isLogAdded] at hlength
    refine ⟨new.dropLast, ?_, ?_, ?_⟩
    · show s.logs.dropLast = b.logs ++ new.dropLast
      rw [hlogs, List.dropLast_append_of_ne_nil hne]
    · rw [List.length_dropLast, hlength]
      rfl
    · intro log hlog
      exact hnew log ((List.dropLast_sublist new).subset hlog)
  · -- Restoring a record does not touch the logs, and its note is not of a log.
    have hnolog : c.isLogAdded = false := by
      cases c with
      | logAdded i => cases haddress
      | _ => rfl
    obtain ⟨hrest, hkept, -⟩ := restore_rest { s with journal := ⟨older⟩ } a c.takeBack
    refine ⟨new, ?_, ?_, hnew⟩
    · rw [hundo, hkept]
      exact hlogs
    · rw [hundo, hrest, hlength, hnolog]
      rfl

/-! ## Programs -/

/-- The store `s` comes from `b` by a program that leaves the mint contract alone. -/
structure Spares (b s : Store) : Prop where
  mintContract_eq : s.mintContract = b.mintContract
  notes : ∀ c ∈ s.journal.newestFirst, c.SparesMint b.mintContract
  logs : b.NewLogs s
  txIndex_eq : s.txIndex = b.txIndex

theorem Spares.refl {b : Store} (hb : b.journal = .empty) : b.Spares b := by
  refine ⟨rfl, ?_, .refl hb, rfl⟩
  intro c hc
  rw [hb] at hc
  exact (List.not_mem_nil hc).elim

/-- The notes of a write to another account, or of a balance or a nonce, spare the contract. -/
theorem sparesMint_of_mem_writeNotes {s : Store} {a : Address} {m : Amendment}
    (hm : a = MintContract.address → (∃ b, m = .balance b) ∨ ∃ n, m = .nonce n) {c : Change}
    (hc : c ∈ s.writeNotes a m) : c.SparesMint s.mintContract := by
  unfold writeNotes at hc
  rcases List.mem_cons.mp hc with rfl | hc
  · cases m with
    | balance x => trivial
    | nonce n => trivial
    | code code =>
      intro ha
      rcases hm ha with ⟨x, hx⟩ | ⟨n, hn⟩
      · cases hx
      · cases hn
    | word key value =>
      intro ha
      rcases hm ha with ⟨x, hx⟩ | ⟨n, hn⟩
      · cases hx
      · cases hn
  · split at hc
    · exact (List.not_mem_nil hc).elim
    · -- The account is created, so there was none before.
      next hexists =>
      rw [List.mem_singleton.mp hc]
      intro ha
      apply mintContract_of_not_hasAccount
      rw [← ha]
      exact Bool.not_eq_true _ ▸ hexists

/-- A write that spares the contract keeps the invariant. -/
theorem Spares.write {b s : Store} (h : b.Spares s) {a : Address} {m : Amendment}
    (hm : a = MintContract.address → (∃ b, m = .balance b) ∨ ∃ n, m = .nonce n) :
    b.Spares (s.write a m) := by
  obtain ⟨hcontract, hnotes, hlogs, htx⟩ := h
  refine ⟨(mintContract_write hm).trans hcontract, ?_, hlogs.write a m, ?_⟩
  · intro c hc
    rw [journal_write] at hc
    rcases List.mem_append.mp hc with hc | hc
    · -- The notes spare the contract as it is now, which is as it was.
      rw [← hcontract]
      exact sparesMint_of_mem_writeNotes hm hc
    · exact hnotes c hc
  · rw [txIndex_write]
    exact htx

/-- Taking back a note that spares the contract leaves it alone. -/
theorem mintContract_undo {s : Store} {c : Change} (hc : c.SparesMint s.mintContract) :
    (s.undo c).mintContract = s.mintContract := by
  rcases undo_cases c with ⟨a, rfl⟩ | ⟨i, rfl⟩ | ⟨a, haddress, -, hundo⟩
  · -- The account was created by what is taken back, so there was no contract.
    by_cases ha : a = MintContract.address
    · have hnone : (s.undo (.created a)).hasAccount MintContract.address = false := by
        show (s.accounts.erase a).contains MintContract.address = false
        simp [SortedMap.contains, SortedMap.get?_erase, ha]
      rw [mintContract_of_not_hasAccount hnone]
      exact (hc ha).symm
    · have hsame : (s.undo (.created a)).record MintContract.address =
          s.record MintContract.address := by
        simp only [record, undo, SortedMap.get?_erase]
        rw [if_neg (Ne.symm ha)]
      simp only [mintContract, hsame]
  · rfl
  · -- A record is restored; if it is the contract's, neither code nor a word was noted.
    have hget := get?_restore s a MintContract.address c.takeBack
    simp only [mintContract, record, hundo, hget]
    split
    · next heq =>
      cases hs : s.accounts.get? a with
      | none => rw [heq, hs]; rfl
      | some r =>
        rw [heq, hs]
        cases c with
        | codeSet a' previous =>
          cases haddress
          exact absurd heq.symm hc
        | wordSet a' key previous =>
          cases haddress
          exact absurd heq.symm hc
        | _ => rfl
    · rfl

/-- Taking back the newest change keeps the invariant. -/
theorem Spares.undoNewest {b s : Store} (h : b.Spares s) : b.Spares s.undoNewest := by
  unfold Store.undoNewest
  split
  · exact h
  · next c older hjournal =>
    obtain ⟨hcontract, hnotes, hlogs, htx⟩ := h
    obtain ⟨hrest, -, htx', -⟩ := undo_rest { s with journal := ⟨older⟩ } c
    -- The newest change is one of those noted, none of which concerns the contract.
    have hc : c.SparesMint s.mintContract := by
      rw [hcontract]
      apply hnotes
      rw [hjournal]
      exact List.mem_cons_self
    have hundone : ({ s with journal := ⟨older⟩ }.undo c).mintContract = s.mintContract :=
      mintContract_undo (s := { s with journal := ⟨older⟩ }) hc
    refine ⟨hundone.trans hcontract, ?_, hlogs.undo hjournal, htx'.trans htx⟩
    -- The older notes were there before.
    intro c' hc'
    rw [hrest] at hc'
    apply hnotes
    rw [hjournal]
    exact List.mem_cons_of_mem _ hc'

/-- So does a log that is not in the contract's name. -/
theorem Spares.addLog {b s : Store} (h : b.Spares s) {log : Log}
    (hlog : log.address ≠ MintContract.address) : b.Spares (s.addLog log) := by
  refine ⟨h.mintContract_eq, ?_, h.logs.addLog h.txIndex_eq hlog, h.txIndex_eq⟩
  intro c hc
  rcases List.mem_cons.mp hc with rfl | hc
  · trivial
  · exact h.notes c hc

/-- One operation that leaves the contract alone. -/
theorem Spares.move {b s t : Store} {op : Operation} (h : b.Spares s) (hmove : Move s op t)
    (hop : op.SparesMint) : b.Spares t := by
  cases hmove with
  | keep => exact h
  | @write _ a m hamends =>
    refine h.write fun ha => ?_
    -- Writes to the contract's account are of balances and nonces.
    cases hamends with
    | addBalance a amount x => exact .inl ⟨x, rfl⟩
    | subBalance a amount x => exact .inl ⟨x, rfl⟩
    | setNonce a n => exact .inr ⟨n, rfl⟩
    | setCode a code => exact absurd ha hop
    | setWord a key value => exact absurd ha hop
  | selectTx i =>
    -- Logs are added for the same transaction throughout.
    exact hop.elim
  | addLog log => exact h.addLog hop
  | clearLogs => exact hop.elim
  | snapshot => exact ⟨h.mintContract_eq, h.notes, h.logs, h.txIndex_eq⟩
  | revertTo hrevert =>
    obtain ⟨newer, snap, older, -, -, -, rfl⟩ := revertTo_eq_ok.mp hrevert
    -- However far the way back is, it stays within what has been noted since `b`.
    have hclosed : b.Spares { s with snapshots := older } :=
      ⟨h.mintContract_eq, h.notes, h.logs, h.txIndex_eq⟩
    exact undoMany_induction (fun _ h => h.undoNewest) _ hclosed
  | commit => exact hop.elim

/-- A program of such operations. -/
theorem Spares.after {b s : Store} {ops : List Operation} (h : b.Spares s)
    (hops : ∀ op ∈ ops, op.SparesMint) : b.Spares (s.after ops) := by
  -- By induction on the program, one operation at a time.
  induction ops generalizing s with
  | nil => exact h
  | cons op ops ih =>
    have hnext := h.move (perform_move s op) (hops op List.mem_cons_self)
    exact ih hnext fun op' hop' => hops op' (List.mem_cons_of_mem _ hop')

theorem Spares.addBalance {b s t : Store} (h : b.Spares s) {a : Address} {amount : UInt256}
    (hadd : s.addBalance a amount = .ok t) : b.Spares t := by
  have hmove := perform_move s (.addBalance a amount)
  rw [perform_addBalance hadd] at hmove
  exact h.move hmove trivial

theorem Spares.subBalance {b s t : Store} (h : b.Spares s) {a : Address} {amount : UInt256}
    (hsub : s.subBalance a amount = .ok t) : b.Spares t := by
  have hmove := perform_move s (.subBalance a amount)
  rw [perform_subBalance hsub] at hmove
  exact h.move hmove trivial

end Store

end BridgeMint
