import BridgeMint.Proofs.Store.Programs

/-!
# Taking changes back one by one

Going back to a snapshot is taking back the newest change again and again.  Taking back the notes of
a write gives the record that was there before, as far as the journal knows it: a record whose digest
says that it has no code is noted as one without code.
-/

namespace BridgeMint

/-! ## Records as the journal knows them -/

namespace AccountRecord

/-- What the journal knows of a record: the code counts only if the digest says that there is some. -/
def core (r : AccountRecord) : Account × SortedMap Word Word × Option Bytes :=
  (r.header, r.storage, r.code?)

/-- What holds of every record: the digest is that of the code, and no zero word is stored. -/
structure Sound (r : AccountRecord) : Prop where
  codeHash_eq : r.header.codeHash = .keccak256 r.code
  word_ne_zero : ∀ key value, r.storage.get? key = some value → value ≠ .zero

theorem sound_fresh : fresh.Sound := ⟨rfl, fun _ _ h => by cases h⟩

/-- Whether a record counts as having code is read off its digest. -/
theorem code?_eq (r : AccountRecord) :
    r.code? = if r.header.codeHash = .emptyDigest then none else some r.code := by
  by_cases h : r.header.codeHash = .emptyDigest <;> simp [code?, Account.hasCode, h]

theorem code?_eq_some {r : AccountRecord} {c : Bytes} :
    r.code? = some c ↔ r.header.codeHash ≠ .emptyDigest ∧ r.code = c := by
  simp [code?_eq]

theorem code?_eq_none {r : AccountRecord} :
    r.code? = none ↔ r.header.codeHash = .emptyDigest := by
  simp [code?_eq]

/-- The core of an amended record depends on the core of the record only. -/
theorem core_apply {r r' : AccountRecord} (h : r.core = r'.core) (m : Amendment) :
    (m.apply r).core = (m.apply r').core := by
  simp only [core, Prod.mk.injEq, code?_eq] at h
  obtain ⟨hheader, hstorage, hcode⟩ := h
  -- Whether there is code is read off the digest, which the two records share.
  rw [hheader] at hcode
  cases m with
  | balance b => simp [core, Amendment.apply, withBalance, code?_eq, hheader, hstorage, hcode]
  | nonce n => simp [core, Amendment.apply, withNonce, code?_eq, hheader, hstorage, hcode]
  | code c => simp [core, Amendment.apply, withCode, code?_eq, hheader, hstorage]
  | word key value => simp [core, Amendment.apply, withWord, code?_eq, hheader, hstorage, hcode]

/-- Taking the code away works on what the journal knows as well. -/
theorem core_withoutCode {r r' : AccountRecord} (h : r.core = r'.core) :
    r.withoutCode.core = r'.withoutCode.core := by
  simp only [core, Prod.mk.injEq] at h
  obtain ⟨hheader, hstorage, -⟩ := h
  simp [core, withoutCode, code?_eq, hheader, hstorage]

/-- Amendments keep records sound. -/
theorem Sound.apply {r : AccountRecord} (h : r.Sound) (m : Amendment) : (m.apply r).Sound := by
  obtain ⟨hhash, hwords⟩ := h
  cases m with
  | word key value =>
    refine ⟨hhash, fun key' value' hget => ?_⟩
    rw [Amendment.apply, get?_withWord] at hget
    split at hget
    · -- The word that was set is kept only if it is not zero.
      split at hget <;> simp_all
    · exact hwords key' value' hget
  | code c => exact ⟨rfl, hwords⟩
  | _ => exact ⟨hhash, hwords⟩

theorem Sound.withoutCode {r : AccountRecord} (h : r.Sound) : r.withoutCode.Sound :=
  ⟨rfl, h.word_ne_zero⟩

end AccountRecord

namespace Change

/-- What taking a change back makes of the record it touched. -/
def takeBack : Change → AccountRecord → AccountRecord
  | codeSet _ (some code) => (·.withCode code)
  | codeSet _ none => (·.withoutCode)
  | wordSet _ key previous => (·.withWord key previous)
  | nonceSet _ previous => (·.withNonce previous)
  | balanceSet _ previous => (·.withBalance previous)
  | created _ | logAdded _ => id

/-- Taking a change back works on what the journal knows of a record. -/
theorem core_takeBack {r r' : AccountRecord} (h : r.core = r'.core) (c : Change) :
    (c.takeBack r).core = (c.takeBack r').core := by
  cases c with
  | codeSet a previous =>
    cases previous with
    | none => exact AccountRecord.core_withoutCode h
    | some code => exact AccountRecord.core_apply h (.code code)
  | wordSet a key previous => exact AccountRecord.core_apply h (.word key previous)
  | nonceSet a previous => exact AccountRecord.core_apply h (.nonce previous)
  | balanceSet a previous => exact AccountRecord.core_apply h (.balance previous)
  | created a => exact h
  | logAdded i => exact h

/-- Taking changes back keeps records sound. -/
theorem sound_takeBack {r : AccountRecord} (h : r.Sound) (c : Change) : (c.takeBack r).Sound := by
  cases c with
  | codeSet a previous =>
    cases previous with
    | none => exact h.withoutCode
    | some code => exact h.apply (.code code)
  | wordSet a key previous => exact h.apply (.word key previous)
  | nonceSet a previous => exact h.apply (.nonce previous)
  | balanceSet a previous => exact h.apply (.balance previous)
  | created a => exact h
  | logAdded i => exact h

end Change

namespace AccountRecord

/-- Setting a word back to what it was restores the storage. -/
theorem storage_withWord_withWord {r : AccountRecord} (h : r.Sound) (key value : Word) :
    ((r.withWord key value).withWord key (r.word key)).storage = r.storage := by
  -- Storages are equal if every look-up in them is; only the one word is in question.
  refine SortedMap.ext_get? fun key' => ?_
  rw [get?_withWord, get?_withWord]
  split
  · next heq =>
    subst heq
    -- A word that was not stored is zero, and zero is not stored again.
    cases hget : r.storage.get? key' with
    | none => simp [word, hget]
    | some old => simp [word, hget, h.word_ne_zero key' old hget]
  · rfl

/-- The note of a write takes it back. -/
theorem core_takeBack_apply {r : AccountRecord} (h : r.Sound) (a : Address) (m : Amendment) :
    ((m.change a r).takeBack (m.apply r)).core = r.core := by
  -- Balances and nonces are noted as they were; words and code need a look at what is kept of them.
  cases m with
  | balance b => rfl
  | nonce n => rfl
  | word key value =>
    simp only [Amendment.change, Amendment.apply, Change.takeBack, core,
      storage_withWord_withWord h]
    rfl
  | code c =>
    simp only [Amendment.change, Amendment.apply]
    cases hcode : r.code? with
    | none =>
      -- The digest says that there is no code, and that is all the journal knows.
      have hhash := code?_eq_none.mp hcode
      have hheader : { r.header with codeHash := .emptyDigest } = r.header := by rw [← hhash]
      simp [Change.takeBack, core, hcode, withoutCode, withCode, code?_eq, hheader, hhash]
    | some old =>
      obtain ⟨hhash, rfl⟩ := code?_eq_some.mp hcode
      simp [Change.takeBack, core, hcode, withCode, ← h.codeHash_eq]

end AccountRecord

/-! ## The newest change -/

namespace Store

/-- Takes back the newest change, if there is one. -/
def undoNewest (s : Store) : Store :=
  match s.journal.newestFirst with
  | [] => s
  | c :: older => { s with journal := ⟨older⟩ }.undo c

theorem undoNewest_of_cons {s : Store} {c : Change} {older : List Change}
    (h : s.journal.newestFirst = c :: older) :
    s.undoNewest = { s with journal := ⟨older⟩ }.undo c := by
  unfold undoNewest
  rw [h]

/-- Takes back the newest `n` changes. -/
def undoMany : Nat → Store → Store
  | 0, s => s
  | n + 1, s => undoMany n s.undoNewest

/-- Taking back in two parts is taking back at once, the newer part first. -/
theorem undoMany_add (m n : Nat) (s : Store) :
    s.undoMany (m + n) = (s.undoMany m).undoMany n := by
  induction m generalizing s with
  | zero => simp [undoMany]
  | succ m ih => rw [Nat.succ_add, undoMany, ih, undoMany]

/-- Putting a record back does not look at the journal. -/
theorem restore_withJournal (s : Store) (j : Journal) (a : Address)
    (f : AccountRecord → AccountRecord) :
    { s with journal := j }.restore a f = { s.restore a f with journal := j } := by
  simp only [restore]
  split <;> rfl

/-- Nor does taking back a change. -/
theorem undo_withJournal (s : Store) (j : Journal) (c : Change) :
    { s with journal := j }.undo c = { s.undo c with journal := j } := by
  cases c with
  | codeSet a previous => cases previous <;> exact restore_withJournal s j a _
  | created a => rfl
  | logAdded i => rfl
  | _ => exact restore_withJournal s j _ _

/-- Going back to a mark is taking back the newest change until only the marked ones are left. -/
theorem unwind_eq_undoMany (s : Store) (mark : Nat) :
    s.unwind mark = s.undoMany (s.journal.length - mark) := by
  -- The journal is shortened first and the changes are taken back afterwards; one by one is the same,
  -- because taking back a change does not look at the journal.
  have h : ∀ (n : Nat) (l : List Change) (t : Store),
      (l.take n).foldl undo { t with journal := ⟨l.drop n⟩ } =
        { t with journal := ⟨l⟩ }.undoMany n := by
    intro n
    induction n with
    | zero => intro l t; simp [undoMany]
    | succ n ih =>
      intro l t
      cases l with
      | nil =>
        -- Nothing is left to take back, on either side.
        have hnil := ih [] t
        simp only [List.take_nil, List.drop_nil, List.foldl_nil] at hnil ⊢
        rw [undoMany, undoNewest]
        exact hnil
      | cons c l =>
        rw [List.take_succ_cons, List.drop_succ_cons, List.foldl_cons, undo_withJournal, ih,
          undoMany, undoNewest]
        congr 1
        exact (undo_withJournal t ⟨l⟩ c).symm
  exact h _ s.journal.newestFirst s

/-- A property that taking back the newest change keeps is kept by taking back any number. -/
theorem undoMany_induction {P : Store → Prop} (hP : ∀ s, P s → P s.undoNewest) (n : Nat)
    {s : Store} (hs : P s) : P (s.undoMany n) := by
  induction n generalizing s with
  | zero => exact hs
  | succ n ih => exact ih (hP s hs)

/-- A record is put back only for an account that exists, and only for that one. -/
theorem get?_restore (s : Store) (a a' : Address) (f : AccountRecord → AccountRecord) :
    (s.restore a f).accounts.get? a' =
      if a' = a then (s.accounts.get? a).map f else s.accounts.get? a' := by
  unfold restore
  cases h : s.accounts.get? a with
  | none =>
    by_cases heq : a' = a
    · simp [heq, h]
    · simp [heq]
  | some r => simp [SortedMap.get?_insert]

theorem restore_rest (s : Store) (a : Address) (f : AccountRecord → AccountRecord) :
    (s.restore a f).journal = s.journal ∧ (s.restore a f).logs = s.logs ∧
      (s.restore a f).snapshots = s.snapshots ∧ (s.restore a f).txIndex = s.txIndex ∧
      (s.restore a f).nextSnapshot = s.nextSnapshot := by
  simp only [restore]
  split <;> simp

/-- Taking back a change drops an account, drops a log, or restores a record. -/
theorem undo_cases (c : Change) :
    (∃ a, c = .created a) ∨ (∃ i, c = .logAdded i) ∨
      ∃ a, c.address? = some a ∧ c ≠ .created a ∧ ∀ s : Store, s.undo c = s.restore a c.takeBack := by
  cases c with
  | created a => exact .inl ⟨a, rfl⟩
  | logAdded i => exact .inr (.inl ⟨i, rfl⟩)
  | codeSet a previous =>
    refine .inr (.inr ⟨a, rfl, by simp, fun s => ?_⟩)
    cases previous <;> rfl
  | wordSet a key previous => exact .inr (.inr ⟨a, rfl, by simp, fun _ => rfl⟩)
  | nonceSet a previous => exact .inr (.inr ⟨a, rfl, by simp, fun _ => rfl⟩)
  | balanceSet a previous => exact .inr (.inr ⟨a, rfl, by simp, fun _ => rfl⟩)

/-- Taking back a change leaves the journal, the snapshots and the selected transaction alone. -/
theorem undo_rest (s : Store) (c : Change) :
    (s.undo c).journal = s.journal ∧ (s.undo c).snapshots = s.snapshots ∧
      (s.undo c).txIndex = s.txIndex ∧ (s.undo c).nextSnapshot = s.nextSnapshot := by
  rcases undo_cases c with ⟨a, rfl⟩ | ⟨i, rfl⟩ | ⟨a, -, -, h⟩
  · exact ⟨rfl, rfl, rfl, rfl⟩
  · exact ⟨rfl, rfl, rfl, rfl⟩
  · obtain ⟨hjournal, -, hrest⟩ := restore_rest s a c.takeBack
    rw [h]
    exact ⟨hjournal, hrest⟩

theorem journal_undo (s : Store) (c : Change) : (s.undo c).journal = s.journal := by
  obtain ⟨hjournal, -⟩ := undo_rest s c
  exact hjournal

/-- Taking back any number of changes leaves the snapshots, the selected transaction and the count alone. -/
theorem undoMany_rest (s : Store) (n : Nat) :
    (s.undoMany n).snapshots = s.snapshots ∧ (s.undoMany n).txIndex = s.txIndex ∧
      (s.undoMany n).nextSnapshot = s.nextSnapshot := by
  refine undoMany_induction (P := fun t => t.snapshots = s.snapshots ∧ t.txIndex = s.txIndex ∧
    t.nextSnapshot = s.nextSnapshot) (fun t ht => ?_) n ⟨rfl, rfl, rfl⟩
  unfold undoNewest
  split
  · exact ht
  · next c older _ =>
    obtain ⟨hsnapshots, htx, hnext⟩ := ht
    obtain ⟨-, hsnapshots', htx', hnext'⟩ := undo_rest { t with journal := ⟨older⟩ } c
    exact ⟨hsnapshots'.trans hsnapshots, htx'.trans htx, hnext'.trans hnext⟩

theorem snapshots_undoMany (s : Store) (n : Nat) : (s.undoMany n).snapshots = s.snapshots := by
  obtain ⟨hsnapshots, -⟩ := undoMany_rest s n
  exact hsnapshots

theorem nextSnapshot_undoMany (s : Store) (n : Nat) :
    (s.undoMany n).nextSnapshot = s.nextSnapshot := by
  obtain ⟨-, -, hnext⟩ := undoMany_rest s n
  exact hnext

/-- The notes that are left are the older ones. -/
theorem newestFirst_undoMany (s : Store) (n : Nat) :
    (s.undoMany n).journal.newestFirst = s.journal.newestFirst.drop n := by
  induction n generalizing s with
  | zero => rfl
  | succ n ih =>
    rw [undoMany, ih]
    cases h : s.journal.newestFirst with
    | nil => simp [undoNewest, h]
    | cons c older => rw [undoNewest_of_cons h, journal_undo, List.drop_succ_cons]

/-- Taking back a change does not look at the snapshots. -/
theorem undo_withSnapshots (s : Store) (snapshots : List Snapshot) (next : Nat) (c : Change) :
    { s with snapshots := snapshots, nextSnapshot := next }.undo c =
      { s.undo c with snapshots := snapshots, nextSnapshot := next } := by
  rcases undo_cases c with ⟨a, rfl⟩ | ⟨i, rfl⟩ | ⟨a, -, -, h⟩
  · rfl
  · rfl
  · rw [h, h]
    simp only [restore]
    split <;> rfl

/-- So taking back any number of changes does not either. -/
theorem undoMany_withSnapshots (s : Store) (snapshots : List Snapshot) (next n : Nat) :
    { s with snapshots := snapshots, nextSnapshot := next }.undoMany n =
      { s.undoMany n with snapshots := snapshots, nextSnapshot := next } := by
  induction n generalizing s with
  | zero => rfl
  | succ n ih =>
    rw [undoMany, undoMany, ← ih]
    congr 1
    unfold undoNewest
    simp only
    split
    · rfl
    · next c older _ => exact undo_withSnapshots { s with journal := ⟨older⟩ } snapshots next c

end Store

end BridgeMint
