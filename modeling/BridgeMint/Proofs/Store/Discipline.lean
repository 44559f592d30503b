import BridgeMint.Proofs.Store.Effects

/-!
# The discipline of the journal

The journal tells which accounts have come into being since the last commit.  A creation is noted only
of an account that does not exist, any other change only of one that does, and taking back a creation
takes the account away.  So an account exists exactly if it did at the last commit or the journal notes
its creation, and from this it follows that a creation is noted once, and before any other change of
its account.
-/

namespace BridgeMint

/-! ## Notes that fit together -/

/-- Whether an account exists after the noted changes, given which accounts existed before them. -/
def ExistsAfter (existed : Address → Prop) (notes : List Change) (a : Address) : Prop :=
  existed a ∨ .created a ∈ notes

/-- Notes, newest first, that can have been made one after another. -/
inductive Orderly (existed : Address → Prop) : List Change → Prop where
  | nil : Orderly existed []
  /-- An account is created that does not exist. -/
  | created {a : Address} {notes : List Change} (hnotes : Orderly existed notes)
      (hnew : ¬ ExistsAfter existed notes a) : Orderly existed (.created a :: notes)
  /-- An account that exists is changed. -/
  | changed {c : Change} {a : Address} {notes : List Change} (hnotes : Orderly existed notes)
      (haddress : c.address? = some a) (hchange : c ≠ .created a)
      (hexists : ExistsAfter existed notes a) : Orderly existed (c :: notes)
  | logAdded {i : UInt32} {notes : List Change} (hnotes : Orderly existed notes) :
      Orderly existed (.logAdded i :: notes)

/-- Only the note of its creation tells that an account has come into being. -/
theorem existsAfter_cons {existed : Address → Prop} {c : Change} {notes : List Change} {a : Address} :
    ExistsAfter existed (c :: notes) a ↔ c = .created a ∨ ExistsAfter existed notes a := by
  rw [ExistsAfter, ExistsAfter, List.mem_cons, eq_comm (a := c)]
  exact or_left_comm

/-- A change of an account other than its creation is the creation of none. -/
theorem Change.ne_created {c : Change} {a : Address} (haddress : c.address? = some a)
    (hchange : c ≠ .created a) (b : Address) : c ≠ .created b := by
  rintro rfl
  cases haddress
  exact hchange rfl

namespace Orderly

variable {existed : Address → Prop} {notes : List Change}

theorem tail {c : Change} (h : Orderly existed (c :: notes)) : Orderly existed notes := by
  cases h <;> assumption

theorem of_append {later : List Change} (h : Orderly existed (later ++ notes)) :
    Orderly existed notes := by
  induction later with
  | nil => exact h
  | cons c later ih => exact ih h.tail

/-- Whatever is noted of an account, the account exists after it. -/
theorem existsAfter (h : Orderly existed notes) {c : Change} (hc : c ∈ notes) {a : Address}
    (haddress : c.address? = some a) : ExistsAfter existed notes a := by
  induction h with
  | nil => exact (List.not_mem_nil hc).elim
  | created _ _ ih =>
    -- Of the note itself the case is clear; what an older one tells still holds after it.
    rw [existsAfter_cons]
    rcases List.mem_cons.mp hc with rfl | hc
    · exact .inl (by cases haddress; rfl)
    · exact .inr (ih hc)
  | changed _ hfirst _ hexists ih =>
    rw [existsAfter_cons]
    rcases List.mem_cons.mp hc with rfl | hc
    · rw [hfirst, Option.some.injEq] at haddress
      -- Only an account that exists already is changed.
      exact .inr (haddress ▸ hexists)
    · exact .inr (ih hc)
  | logAdded _ ih =>
    rw [existsAfter_cons]
    rcases List.mem_cons.mp hc with rfl | hc
    · cases haddress
    · exact .inr (ih hc)

/-- An account does not exist before its creation is noted. -/
theorem not_existsAfter {a : Address} (h : Orderly existed (.created a :: notes)) :
    ¬ ExistsAfter existed notes a := by
  cases h with
  | created _ hnew => exact hnew
  | changed _ haddress hchange _ => exact absurd rfl (Change.ne_created haddress hchange a)

/-- An account whose creation is noted did not exist before all notes. -/
theorem not_existed {a : Address} (h : Orderly existed notes) (hmem : .created a ∈ notes) :
    ¬ existed a := by
  -- Go back to the note of the creation, and look at what was noted before it.
  obtain ⟨later, earlier, rfl⟩ := List.append_of_mem hmem
  exact fun hexisted => h.of_append.not_existsAfter (.inl hexisted)

/-- The creation of an account is noted at most once. -/
theorem count_created_le (h : Orderly existed notes) (a : Address) :
    notes.count (.created a) ≤ 1 := by
  induction h with
  | nil => exact Nat.zero_le 1
  | @created b notes _ hnew ih =>
    -- If the creation was noted before, the account existed and could not be created.
    by_cases hsame : b = a
    · have hnone : .created a ∉ notes := fun hmem => hnew (hsame ▸ .inr hmem)
      rw [hsame, List.count_cons_self, List.count_eq_zero_of_not_mem hnone]
    · -- The creation of another account counts for nothing here.
      rw [List.count_cons_of_ne (by simpa using hsame)]
      exact ih
  | changed _ haddress hchange _ ih =>
    exact (List.count_cons_of_ne (Change.ne_created haddress hchange a)).trans_le ih
  | logAdded _ ih =>
    rw [List.count_cons_of_ne (by simp)]
    exact ih

end Orderly

/-- A note in the order of their making, found among the newest first. -/
theorem Journal.newestFirst_of_entries {journal : Journal} {before later : List Change} {c : Change}
    (h : journal.entries = before ++ c :: later) :
    journal.newestFirst = later.reverse ++ c :: before.reverse := by
  rw [entries, List.reverse_eq_iff] at h
  simpa using h

namespace Store

/-! ## What the journal tells of a store -/

/-- The notes of a store fit together, and tell which accounts exist. -/
structure Disciplined (existed : Address → Prop) (s : Store) : Prop where
  orderly : Orderly existed s.journal.newestFirst
  hasAccount_iff : ∀ a, s.hasAccount a = true ↔ ExistsAfter existed s.journal.newestFirst a

variable {existed : Address → Prop} {s t : Store}

/-- A store of which nothing is noted. -/
theorem disciplined_of_isEmpty (h : s.journal.newestFirst = []) :
    s.Disciplined (s.hasAccount · = true) := by
  refine ⟨h ▸ .nil, fun a => ?_⟩
  rw [h, ExistsAfter]
  simp

/-- Taking back the creation of an account takes it away; no other change takes one away. -/
theorem hasAccount_undo (s : Store) (c : Change) (a : Address) :
    (s.undo c).hasAccount a = true ↔ s.hasAccount a = true ∧ c ≠ .created a := by
  rcases undo_cases c with ⟨b, rfl⟩ | ⟨i, rfl⟩ | ⟨b, haddress, hchange, h⟩
  · rw [hasAccount_eq_isSome, hasAccount_eq_isSome, undo, SortedMap.get?_erase]
    by_cases heq : a = b
    · simp [heq]
    · simp [heq, eq_comm (a := b)]
  · exact (and_iff_left (by rintro ⟨⟩)).symm
  · -- The record is replaced by an older one, so the account is there as it was.
    have hkept : (s.restore b c.takeBack).hasAccount a = s.hasAccount a := by
      rw [hasAccount_eq_isSome, hasAccount_eq_isSome, get?_restore]
      split
      · next heq => rw [heq, Option.isSome_map]
      · rfl
    rw [h, hkept]
    exact (and_iff_left (Change.ne_created haddress hchange a)).symm

namespace Disciplined

/-- What matters are the accounts and the notes. -/
theorem congr (h : s.Disciplined existed) (haccounts : t.accounts = s.accounts)
    (hjournal : t.journal = s.journal) : t.Disciplined existed := by
  refine ⟨hjournal ▸ h.orderly, fun a => ?_⟩
  rw [hjournal, ← h.hasAccount_iff, hasAccount_eq_isSome, hasAccount_eq_isSome, haccounts]

/-- A write notes a change of an account that exists, at the latest since it was created for it. -/
theorem write (h : s.Disciplined existed) (a : Address) (m : Amendment) :
    (s.write a m).Disciplined existed := by
  have haddress : (m.change a (s.record a)).address? = some a := by cases m <;> rfl
  have hchange : ∀ b, m.change a (s.record a) ≠ .created b := by
    intro b
    cases m <;> rintro ⟨⟩
  -- The note itself makes no account exist; only that of a creation before it may.
  have hsince : ∀ b, ExistsAfter existed (m.change a (s.record a) :: s.journal.newestFirst) b ↔
      s.hasAccount b = true := by
    intro b
    rw [existsAfter_cons, h.hasAccount_iff, or_iff_right (hchange b)]
  -- An account that is absent is created first, which is noted as well.
  cases hexists : s.hasAccount a with
  | true =>
    have hnotes : (s.write a m).journal.newestFirst =
        m.change a (s.record a) :: s.journal.newestFirst := by
      rw [journal_write, writeNotes, if_pos hexists]
      rfl
    refine ⟨?_, fun b => ?_⟩
    · rw [hnotes]
      exact h.orderly.changed haddress (hchange a) ((h.hasAccount_iff a).mp hexists)
    · rw [hnotes, hsince, hasAccount_write, or_iff_left_iff_imp]
      rintro rfl
      exact hexists
  | false =>
    have hnotes : (s.write a m).journal.newestFirst =
        m.change a (s.record a) :: .created a :: s.journal.newestFirst := by
      rw [journal_write, writeNotes, if_neg (by simp [hexists])]
      rfl
    have hnew : ¬ ExistsAfter existed s.journal.newestFirst a := by
      rw [← h.hasAccount_iff, hexists]
      exact Bool.false_ne_true
    refine ⟨?_, fun b => ?_⟩
    · rw [hnotes]
      exact (h.orderly.created hnew).changed haddress (hchange a) (existsAfter_cons.mpr (.inl rfl))
    · rw [hnotes, existsAfter_cons, or_iff_right (hchange b), existsAfter_cons,
        ← h.hasAccount_iff, hasAccount_write, or_comm, Change.created.injEq, eq_comm]

/-- Taking back the newest note leads back to what the notes before it tell. -/
theorem undoNewest (h : s.Disciplined existed) : s.undoNewest.Disciplined existed := by
  unfold Store.undoNewest
  split
  · exact h
  · next c older hjournal =>
    have horderly := hjournal ▸ h.orderly
    have hnotes : ({ s with journal := ⟨older⟩ }.undo c).journal.newestFirst = older := by
      obtain ⟨hjournal', -⟩ := undo_rest { s with journal := ⟨older⟩ } c
      rw [hjournal']
    refine ⟨hnotes.symm ▸ horderly.tail, fun a => ?_⟩
    -- What existed with the note, in terms of the notes before it; and what still exists without it.
    have hbefore : s.hasAccount a = true ↔ c = .created a ∨ ExistsAfter existed older a := by
      rw [h.hasAccount_iff, hjournal, existsAfter_cons]
    have hafter : ({ s with journal := ⟨older⟩ }.undo c).hasAccount a = true ↔
        s.hasAccount a = true ∧ c ≠ .created a := hasAccount_undo _ c a
    rw [hnotes, hafter, hbefore]
    constructor
    · rintro ⟨hcreated | hexists, hother⟩
      · exact absurd hcreated hother
      · exact hexists
    · -- An account whose creation is taken back did not exist before it.
      intro hexists
      refine ⟨.inr hexists, ?_⟩
      rintro rfl
      exact horderly.not_existsAfter hexists

/-- Every operation but a commit keeps the discipline, with the same accounts to start from. -/
theorem move {op : Operation} (h : s.Disciplined existed) (hmove : Move s op t)
    (hop : op ≠ .commit) : t.Disciplined existed := by
  cases hmove with
  | keep => exact h
  | write _ => exact h.write _ _
  | selectTx i => exact h.congr rfl rfl
  | addLog log =>
    refine ⟨h.orderly.logAdded, fun a => ?_⟩
    exact (h.hasAccount_iff a).trans (existsAfter_cons.trans (or_iff_right (by rintro ⟨⟩))).symm
  | clearLogs => exact h.congr rfl rfl
  | snapshot => exact h.congr rfl rfl
  | revertTo hback =>
    -- Going back closes snapshots, which tells nothing, and takes notes back one by one.
    obtain ⟨newer, snap, older, -, -, -, rfl⟩ := revertTo_eq_ok.mp hback
    have hclosed : { s with snapshots := older }.Disciplined existed := h.congr rfl rfl
    exact undoMany_induction (P := Disciplined existed) (fun _ h => h.undoNewest) _ hclosed
  | commit => exact absurd rfl hop

end Disciplined

end Store

/-! ## Since the last commit -/

/-- The operations of a program up to its last commit; none if it does not commit. -/
def Operation.upToCommit (ops : List Operation) : List Operation :=
  (ops.reverse.dropWhile (· ≠ .commit)).reverse

/-- A last operation that commits ends the part that counts; any other leaves it as it was. -/
theorem Operation.upToCommit_concat (ops : List Operation) (op : Operation) :
    upToCommit (ops ++ [op]) = if op = .commit then ops ++ [op] else upToCommit ops := by
  rw [upToCommit, List.reverse_append, List.reverse_singleton, List.singleton_append]
  split
  case isTrue hcommit => rw [List.dropWhile_cons_of_neg (by simpa using hcommit)]; simp
  case isFalse hother => rw [List.dropWhile_cons_of_pos (by simpa using hother), upToCommit]

namespace Store

/-- After any program the journal tells which accounts have come into being since the last commit. -/
theorem disciplined_after (s : Store) (hs : s.journal.newestFirst = []) (ops : List Operation) :
    (s.after ops).Disciplined ((s.after (Operation.upToCommit ops)).hasAccount · = true) := by
  -- The last operation either commits, and the discipline starts anew, or keeps what it finds.
  induction ops using List.reverseRecOn with
  | nil => exact disciplined_of_isEmpty hs
  | append_singleton ops op ih =>
    have hafter : s.after (ops ++ [op]) = (s.after ops).perform op := List.foldl_concat ..
    rw [Operation.upToCommit_concat]
    split
    case isTrue hcommit =>
      subst hcommit
      rw [hafter]
      exact disciplined_of_isEmpty rfl
    case isFalse hother =>
      rw [hafter]
      exact ih.move (perform_move _ op) hother

/-! ## What a single operation notes -/

/-- The notes of a write in the order they are made: the creation of an account that was absent, and
what is overwritten. -/
theorem entries_write (s : Store) (a : Address) (m : Amendment) :
    (s.write a m).journal.entries =
      s.journal.entries ++ (if s.hasAccount a then [] else [.created a]) ++
        [m.change a (s.record a)] := by
  rw [journal_write, Journal.entries, Journal.entries, writeNotes]
  split <;> simp

/-- The code of a record is noted unless it has the digest of the empty byte string. -/
theorem Sound.code?_eq {s : Store} (hs : s.Sound) (a : Address) :
    (s.record a).code? =
      if Word.keccak256 (s.code a) = .emptyDigest then none else some (s.code a) := by
  rw [AccountRecord.code?_eq, (hs.record a).codeHash_eq]
  rfl

end Store

/-- The account that an operation writes to, and the change that is noted: the value overwritten.
Code with the digest of the empty byte string counts as none. -/
def Operation.note? (s : Store) : Operation → Option (Address × Change)
  | .addBalance a _ | .subBalance a _ => some (a, .balanceSet a (s.balance a))
  | .setNonce a _ => some (a, .nonceSet a (s.nonce a))
  | .setCode a _ =>
    some (a, .codeSet a
      (if Word.keccak256 (s.code a) = .emptyDigest then none else some (s.code a)))
  | .setWord a key _ => some (a, .wordSet a key (s.word a key))
  | _ => none

namespace Ledger

/-- A balance is set, or the operation is refused and nothing changes. -/
theorem settle_write {ledger : Ledger} {a : Address} {result : Except StoreError Store}
    (h : ∀ t, result = .ok t → ∃ balance, t = ledger.store.write a (.balance balance)) :
    let settled := ledger.settle (result.map fun store => { ledger with store })
    (settled.1 = .done ∧ ∃ m : Amendment,
      m.change a (ledger.store.record a) = .balanceSet a (ledger.store.balance a) ∧
      settled.2.store = ledger.store.write a m) ∨
    (∃ cause, settled.1 = .refused cause) ∧ settled.2 = ledger := by
  cases result with
  | error cause => exact .inr ⟨⟨cause, rfl⟩, rfl⟩
  | ok t =>
    obtain ⟨balance, rfl⟩ := h t rfl
    exact .inl ⟨rfl, .balance balance, rfl, rfl⟩

/-- An operation on an account is a write that notes what it overwrites, unless it moves a balance and
is refused. -/
theorem perform_of_note {ledger : Ledger} (hs : ledger.store.Sound) {op : Operation} {a : Address}
    {c : Change} (h : op.note? ledger.store = some (a, c)) :
    ((ledger.perform op).1 = .done ∧ ∃ m : Amendment, m.change a (ledger.store.record a) = c ∧
      (ledger.perform op).2.store = ledger.store.write a m) ∨
    (∃ amount, op = .addBalance a amount ∨ op = .subBalance a amount) ∧
      (∃ cause, (ledger.perform op).1 = .refused cause) ∧ (ledger.perform op).2 = ledger := by
  cases op with
  | addBalance b amount =>
    cases h
    -- A balance can be refused; everything else on an account is carried out.
    refine (settle_write fun t hsum => ?_).imp_right fun hrefused => ⟨⟨amount, .inl rfl⟩, hrefused⟩
    obtain ⟨balance, -, hwrite⟩ := Store.addBalance_eq_ok.mp hsum
    exact ⟨balance, hwrite⟩
  | subBalance b amount =>
    cases h
    refine (settle_write fun t hdifference => ?_).imp_right fun hrefused =>
      ⟨⟨amount, .inr rfl⟩, hrefused⟩
    obtain ⟨balance, -, hwrite⟩ := Store.subBalance_eq_ok.mp hdifference
    exact ⟨balance, hwrite⟩
  | setNonce b nonce =>
    cases h
    exact .inl ⟨rfl, .nonce nonce, rfl, rfl⟩
  | setCode b code =>
    cases h
    refine .inl ⟨rfl, .code code, ?_, rfl⟩
    simp only [Amendment.change, hs.code?_eq]
  | setWord b key value =>
    cases h
    exact .inl ⟨rfl, .word key value, rfl, rfl⟩
  | _ => cases h

/-- The discipline of the journal.  After any operations, the creation of an account is noted at most
once, and exactly if the account exists and did not at the last commit, or at the start if there was
none; before it no change of the account is noted, and of an account that does not exist nothing is
noted at all.  A further operation that writes to an account adds one change to the journal, with the
value that it overwrites, and before it the creation of the account exactly if it was absent; only
adding to and taking from a balance can be refused, and then nothing changes. -/
theorem journal_discipline (balances : List (Address × UInt256)) (ops : List Operation) :
    let start := Ledger.ofStore (.withBalances balances)
    let committed := (start.performAll (Operation.upToCommit ops)).2.store
    let ledger := (start.performAll ops).2
    let entries := ledger.store.journal.entries
    (∀ a, entries.count (.created a) ≤ 1 ∧
      (.created a ∈ entries ↔ ledger.store.hasAccount a ∧ ¬ committed.hasAccount a) ∧
      (∀ before later, entries = before ++ .created a :: later → ∀ c ∈ before, c.address? ≠ some a) ∧
      (¬ ledger.store.hasAccount a → ∀ c ∈ entries, c.address? ≠ some a)) ∧
    ∀ op a c, op.note? ledger.store = some (a, c) →
      ((ledger.perform op).1 = .done ∧
        (ledger.perform op).2.store.journal.entries =
          entries ++ (if ledger.store.hasAccount a then [] else [.created a]) ++ [c]) ∨
      (∃ amount, op = .addBalance a amount ∨ op = .subBalance a amount) ∧
        (∃ cause, (ledger.perform op).1 = .refused cause) ∧ (ledger.perform op).2 = ledger := by
  intro start committed ledger entries
  have hstore : ledger.store = (Store.withBalances balances).after ops := store_performAll start ops
  have hcommitted : committed =
      (Store.withBalances balances).after (Operation.upToCommit ops) := store_performAll start _
  have hdisciplined := Store.disciplined_after (.withBalances balances) rfl ops
  rw [← hstore, ← hcommitted] at hdisciplined
  -- The notes fit together and tell which accounts exist, given those at the last commit.
  obtain ⟨horderly, hexists⟩ := hdisciplined
  refine ⟨fun a => ⟨?once, ⟨?present, ?noted⟩, ?first, ?absent⟩, fun op a c hnote => ?_⟩
  case once =>
    -- The entries are the notes in the order they were made, so counts and members are the same.
    show ledger.store.journal.newestFirst.reverse.count _ ≤ 1
    rw [List.count_reverse]
    exact horderly.count_created_le a
  case present =>
    intro hmem
    have hmem := List.mem_reverse.mp hmem
    -- What was created exists, and did not before all notes, which is at the commit.
    exact ⟨(hexists a).mpr (.inr hmem), horderly.not_existed hmem⟩
  case noted =>
    rintro ⟨hnow, hnot⟩
    -- It exists either since before the notes, which is excluded, or by a note.
    exact List.mem_reverse.mpr (((hexists a).mp hnow).resolve_left hnot)
  case first =>
    intro before later hsplit c hc haddress
    -- The notes up to the creation: a change among them would tell that the account existed.
    have hcreated := (Journal.newestFirst_of_entries hsplit ▸ horderly).of_append
    exact hcreated.not_existsAfter (hcreated.tail.existsAfter (List.mem_reverse.mpr hc) haddress)
  case absent =>
    intro hnone c hc haddress
    -- A note of the account would tell that it exists.
    exact hnone ((hexists a).mpr (horderly.existsAfter (List.mem_reverse.mp hc) haddress))
  -- What is overwritten is read off a sound store.
  have hsound : ledger.store.Sound := by
    rw [hstore]
    exact ((Store.Reachable.withBalances balances).after ops).sound
  rcases perform_of_note hsound hnote with ⟨hdone, m, rfl, hwrite⟩ | hrefused
  · refine .inl ⟨hdone, ?_⟩
    rw [hwrite, Store.entries_write]
  · exact .inr hrefused

/-- Account 9 is created, taken back and created again, and account 8 is created before a commit. -/
def recreatingOps : List Operation :=
  [.setNonce (.ofNat 8) 1, .commit, .snapshot, .setNonce (.ofNat 9) 1, .revertTo 0,
    .addBalance (.ofNat 9) 5]

/-- The second creation is noted, the first one and that before the commit are not, and a further account is
noted with its creation. -/
theorem journal_discipline_recreating :
    let ledger := ((Ledger.ofStore (.withBalances [])).performAll recreatingOps).2
    let entries := ledger.store.journal.entries
    entries.count (.created (.ofNat 9)) ≤ 1 ∧ .created (.ofNat 9) ∈ entries ∧
      .created (.ofNat 8) ∉ entries ∧ (∀ c ∈ entries, c.address? ≠ some (.ofNat 7)) ∧
      (ledger.perform (.setNonce (.ofNat 7) 1)).2.store.journal.entries =
        entries ++ [.created (.ofNat 7)] ++ [.nonceSet (.ofNat 7) 0] := by
  intro ledger entries
  obtain ⟨haccounts, hnotes⟩ := journal_discipline [] recreatingOps
  obtain ⟨honce, hcreated, -, -⟩ := haccounts (.ofNat 9)
  obtain ⟨-, hcommitted, -, -⟩ := haccounts (.ofNat 8)
  obtain ⟨-, -, -, habsent⟩ := haccounts (.ofNat 7)
  -- Which accounts exist is found by running the operations.
  have hwritten := hnotes (.setNonce (.ofNat 7) 1) (.ofNat 7) (.nonceSet (.ofNat 7) 0) (by decide +kernel)
  refine ⟨honce, hcreated.mpr (by decide +kernel), fun hmem => ?_, habsent (by decide +kernel), ?_⟩
  · obtain ⟨-, hnew⟩ := hcommitted.mp hmem
    exact absurd hnew (by decide +kernel)
  · rcases hwritten with ⟨-, hentries⟩ | ⟨⟨amount, hop | hop⟩, -⟩
    · exact hentries
    · cases hop
    · cases hop

end Ledger

end BridgeMint
