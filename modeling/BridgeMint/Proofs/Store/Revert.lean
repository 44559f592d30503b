import BridgeMint.Proofs.Store.Invariant

/-!
# Going back is exact

Whatever a program does after a snapshot, as long as it neither commits, nor drops logs, nor goes back
further than that, going back to the snapshot finds the accounts, the logs and the journal as they
were.  The invariant is that taking back the notes made since the snapshot gives that store: a write
adds notes that take it back, and going back to a later snapshot only takes some of them back already.
-/

namespace BridgeMint

/-! ## Programs that can be taken back -/

/-- Operations that the journal can take back: no commit, no dropping of logs, and going back only to
snapshots with the number `floor` or a later one. -/
def Operation.IsJournaled (floor : Nat) : Operation → Prop
  | .clearLogs | .commit => False
  | .revertTo id => floor ≤ id
  | _ => True

/-- With fewer numbers forbidden, no less is allowed. -/
theorem Operation.IsJournaled.mono {floor floor' : Nat} {op : Operation} (hle : floor' ≤ floor)
    (h : op.IsJournaled floor) : op.IsJournaled floor' := by
  cases op with
  | revertTo id => exact Nat.le_trans hle h
  | clearLogs => exact h
  | commit => exact h
  | _ => trivial

namespace Store

/-! ## Stores that agree

Going back restores what the journal knows, and that is not quite all: of a record whose digest is that
of the empty byte string, the journal does not keep the code.  Stores are therefore compared by the cores
of their records first.
-/

/-- Two stores have the same contents, as far as the journal knows them. -/
structure Agree (s t : Store) : Prop where
  accounts : ∀ a, (s.accounts.get? a).map (·.core) = (t.accounts.get? a).map (·.core)
  logs : s.logs = t.logs
  journal : s.journal = t.journal

theorem Agree.refl (s : Store) : s.Agree s := ⟨fun _ => rfl, rfl, rfl⟩

theorem Agree.trans {s t u : Store} (h : s.Agree t) (h' : t.Agree u) : s.Agree u :=
  ⟨fun a => (h.accounts a).trans (h'.accounts a), h.logs.trans h'.logs, h.journal.trans h'.journal⟩

/-- Taking back one change keeps agreement. -/
theorem Agree.undoNewest {s t : Store} (h : s.Agree t) : s.undoNewest.Agree t.undoNewest := by
  unfold Store.undoNewest
  -- The journals are the same, so the same change is taken back in both.
  rw [← h.journal]
  split
  · exact h
  · next c older hjournal =>
    rcases undo_cases c with ⟨a, rfl⟩ | ⟨i, rfl⟩ | ⟨a, -, -, hundo⟩
    · -- The account is dropped from both.
      refine ⟨fun b => ?_, h.logs, rfl⟩
      simp only [undo, SortedMap.get?_erase]
      split
      · rfl
      · exact h.accounts b
    · -- A log is dropped from the end of both lists.
      exact ⟨h.accounts, congrArg List.dropLast h.logs, rfl⟩
    · obtain ⟨hsj, hsl, -⟩ := restore_rest { s with journal := ⟨older⟩ } a c.takeBack
      obtain ⟨htj, htl, -⟩ := restore_rest { t with journal := ⟨older⟩ } a c.takeBack
      rw [hundo, hundo]
      refine ⟨fun b => ?_, by rw [hsl, htl]; exact h.logs, by rw [hsj, htj]⟩
      rw [get?_restore, get?_restore]
      split
      · -- What the journal knows of the record decides what becomes of that.
        have ha := h.accounts a
        cases hsa : s.accounts.get? a <;> cases hta : t.accounts.get? a <;>
          simp only [hsa, hta, Option.map_none, Option.map_some, reduceCtorEq,
            Option.some.injEq] at ha ⊢
        exact Change.core_takeBack ha c
      · exact h.accounts b

theorem Agree.undoMany {s t : Store} (h : s.Agree t) (n : Nat) :
    (s.undoMany n).Agree (t.undoMany n) := by
  induction n generalizing s t with
  | zero => exact h
  | succ n ih => exact ih h.undoNewest

/-! ## Stores with notes on top of another

The relation `Rewinds` composes, so that every operation needs to be looked at in its own place only:
what it notes takes back what it did.
-/

/-- Taking back the notes that `s` has on top of `b` gives the contents of `b`. -/
def Rewinds (b s : Store) : Prop :=
  ∃ n, s.journal.length = b.journal.length + n ∧ (s.undoMany n).Agree b

theorem Rewinds.refl (s : Store) : s.Rewinds s := ⟨0, rfl, .refl s⟩

/-- Whether a store rewinds is a matter of what the journal knows of it. -/
theorem Rewinds.of_agree {b s t : Store} (h : b.Rewinds s) (ht : t.Agree s) : b.Rewinds t := by
  obtain ⟨n, hlen, hn⟩ := h
  exact ⟨n, by rw [ht.journal, hlen], (ht.undoMany n).trans hn⟩

/-- Notes on top of notes take back one after the other. -/
theorem Rewinds.trans {b s t : Store} (h : b.Rewinds s) (h' : s.Rewinds t) : b.Rewinds t := by
  obtain ⟨n, hlen, hn⟩ := h
  obtain ⟨m, hlen', hm⟩ := h'
  -- The notes of the second part are the newer ones.
  refine ⟨m + n, by omega, ?_⟩
  rw [undoMany_add]
  exact (hm.undoMany n).trans hn

/-- As many notes are gone as were taken back, as long as there are any. -/
theorem length_undoMany (s : Store) (n : Nat) :
    (s.undoMany n).journal.length = s.journal.length - n := by
  induction n generalizing s with
  | zero => rfl
  | succ n ih =>
    have hone : s.undoNewest.journal.length = s.journal.length - 1 := by
      unfold Store.undoNewest
      split
      · next h => simp [Journal.length, h]
      · next c older h => simp [journal_undo, Journal.length, h]
    rw [undoMany, ih, hone]
    omega

/-- Going back to a mark above `b` takes back some of the notes on top of `b` already. -/
theorem Rewinds.unwind {b s : Store} (h : b.Rewinds s) {mark : Nat}
    (hmark : b.journal.length ≤ mark) : b.Rewinds (s.undoMany (s.journal.length - mark)) := by
  obtain ⟨n, hlen, hn⟩ := h
  refine ⟨n - (s.journal.length - mark), ?_, ?_⟩
  · rw [length_undoMany]
    omega
  · rw [← undoMany_add]
    -- What is taken back now and what is left to take back make up all of the notes.
    have hsum : s.journal.length - mark + (n - (s.journal.length - mark)) = n := by omega
    rw [hsum]
    exact hn

/-- Taking back the note of an amendment restores the record; the account stays. -/
theorem undoNewest_write {s : Store} (hs : s.Sound) {a : Address} {m : Amendment}
    {older : List Change}
    (h : (s.write a m).journal.newestFirst = m.change a (s.record a) :: older) :
    (∀ b, ((s.write a m).undoNewest.accounts.get? b).map (·.core) =
        if b = a then some (s.record a).core else (s.accounts.get? b).map (·.core)) ∧
      (s.write a m).undoNewest.logs = s.logs ∧ (s.write a m).undoNewest.journal = ⟨older⟩ := by
  -- The newest note is that of the amendment, so a record is put back.
  have hundo : (s.write a m).undoNewest = { s.write a m with journal := ⟨older⟩ }.restore a
      (m.change a (s.record a)).takeBack := by
    rw [undoNewest_of_cons h]
    cases m with
    | code c => simp only [Amendment.change]; cases (s.record a).code? <;> rfl
    | _ => rfl
  obtain ⟨hjournal, hlogs, -⟩ := restore_rest { s.write a m with journal := ⟨older⟩ } a
    (m.change a (s.record a)).takeBack
  rw [hundo]
  refine ⟨fun b => ?_, by rw [hlogs]; exact logs_write s a m, hjournal⟩
  rw [get?_restore]
  simp only [get?_write, if_true, Option.map_some]
  split
  · rw [Option.map_some, AccountRecord.core_takeBack_apply (hs.record a) a m]
  · rfl

/-- The notes of a write take it back. -/
theorem rewinds_write {s : Store} (hs : s.Sound) (a : Address) (m : Amendment) :
    s.Rewinds (s.write a m) := by
  have hjournal := congrArg Journal.newestFirst (journal_write s a m)
  simp only [writeNotes, List.cons_append] at hjournal
  obtain ⟨haccounts, hlogs, hnewest⟩ := undoNewest_write hs hjournal
  cases hexists : s.hasAccount a with
  | true =>
    -- The account was there before, so there is no other note to take back.
    simp only [hexists, if_true, List.nil_append] at hjournal hnewest
    refine ⟨1, by simp [Journal.length, hjournal], fun b => ?_, hlogs, hnewest⟩
    rw [undoMany, undoMany, haccounts]
    split
    · next heq => rw [heq, get?_of_hasAccount hexists, Option.map_some]
    · rfl
  | false =>
    -- The second note drops the account again.
    simp only [hexists, Bool.false_eq_true, if_false, List.singleton_append] at hjournal hnewest
    have hundo : (s.write a m).undoMany 2 =
        { (s.write a m).undoNewest with
          journal := ⟨s.journal.newestFirst⟩
          accounts := (s.write a m).undoNewest.accounts.erase a } := by
      rw [undoMany, undoMany, undoMany, undoNewest_of_cons (congrArg Journal.newestFirst hnewest)]
      rfl
    refine ⟨2, by simp [Journal.length, hjournal], fun b => ?_, ?_, ?_⟩
    · rw [hundo]
      simp only [SortedMap.get?_erase]
      split
      · next heq => rw [heq, get?_of_not_hasAccount hexists]
      · next hne => rw [haccounts, if_neg hne]
    · rw [hundo]
      exact hlogs
    · rw [hundo]

/-- The note of a log takes it back. -/
theorem rewinds_addLog (s : Store) (log : Log) : s.Rewinds (s.addLog log) := by
  refine ⟨1, by simp [addLog, Journal.length, Journal.append], fun a => rfl, ?_, rfl⟩
  show (s.logs ++ _).dropLast = s.logs
  exact List.dropLast_concat

/-! ## Programs after a snapshot -/

/-- The snapshots opened on top of `b`: their numbers have not been given out before, and their marks
keep the notes of `b`. -/
def OpenedOn (b : Store) (newer : List Snapshot) : Prop :=
  ∀ snap ∈ newer, b.nextSnapshot ≤ snap.id ∧ b.journal.length ≤ snap.mark

/-- The store `s` comes from `b` by a program that the journal can take back. -/
structure Extends (b s : Store) : Prop where
  sound : s.Sound
  rewinds : b.Rewinds s
  snapshots : ∃ newer, s.snapshots = newer ++ b.snapshots ∧ b.OpenedOn newer
  nextSnapshot_le : b.nextSnapshot ≤ s.nextSnapshot

theorem Extends.refl {b : Store} (hb : b.Sound) : b.Extends b :=
  ⟨hb, .refl b, ⟨[], rfl, fun _ h => by simp at h⟩, Nat.le_refl _⟩

/-- An open snapshot that was not open before is one of the newer ones. -/
theorem exists_rest_of_not_mem {newer before skipped older : List Snapshot} {snap : Snapshot}
    (h : newer ++ before = skipped ++ snap :: older) (hsnap : snap ∉ before) :
    ∃ rest, older = rest ++ before ∧ newer = skipped ++ snap :: rest := by
  -- One of the two fronts is the longer one; the snapshot lies in the newer part or in the other.
  rcases List.append_eq_append_iff.mp h with ⟨l, -, hl⟩ | ⟨l, hl, hl'⟩
  · have hmem : snap ∈ before := by
      rw [hl]
      exact List.mem_append_right _ List.mem_cons_self
    exact absurd hmem hsnap
  · cases l with
    | nil =>
      have hmem : snap ∈ before := by
        rw [List.nil_append] at hl'
        rw [← hl']
        exact List.mem_cons_self
      exact absurd hmem hsnap
    | cons x rest =>
      rw [List.cons_append, List.cons.injEq] at hl'
      obtain ⟨rfl, hrest⟩ := hl'
      exact ⟨rest, hrest, hl⟩

/-- One operation keeps the invariant. -/
theorem Extends.move {b s t : Store} {op : Operation} (hb : b.Sound) (h : b.Extends s)
    (hmove : Move s op t) (hop : op.IsJournaled b.nextSnapshot) : b.Extends t := by
  have hsound := h.sound.move hmove
  obtain ⟨hs, hrewinds, ⟨newer, hsnapshots, hopened⟩, hle⟩ := h
  -- Each way the store can move, looked at by itself.
  cases hmove with
  | keep =>
    -- Nothing has changed.
    exact ⟨hsound, hrewinds, ⟨newer, hsnapshots, hopened⟩, hle⟩
  | @write _ a m _ =>
    -- The notes of the write come on top of those there are.
    refine ⟨hsound, hrewinds.trans (rewinds_write hs a m), ⟨newer, ?_, hopened⟩, ?_⟩
    · rw [snapshots_write, hsnapshots]
    · rw [nextSnapshot_write]
      exact hle
  | selectTx i =>
    exact ⟨hsound, hrewinds.of_agree ⟨fun _ => rfl, rfl, rfl⟩, ⟨newer, hsnapshots, hopened⟩, hle⟩
  | addLog log =>
    exact ⟨hsound, hrewinds.trans (rewinds_addLog s log), ⟨newer, hsnapshots, hopened⟩, hle⟩
  | clearLogs =>
    -- Neither dropping the logs nor committing is allowed.
    exact hop.elim
  | commit => exact hop.elim
  | snapshot =>
    refine ⟨hsound, hrewinds.of_agree ⟨fun _ => rfl, rfl, rfl⟩,
      ⟨⟨s.nextSnapshot, s.journal.length⟩ :: newer, ?_, ?_⟩, Nat.le_succ_of_le hle⟩
    · simp [Store.snapshot, hsnapshots]
    · intro snap hsnap
      rcases List.mem_cons.mp hsnap with rfl | hsnap
      · -- The mark of the new snapshot keeps all notes, those of `b` among them.
        obtain ⟨n, hlen, -⟩ := hrewinds
        exact ⟨hle, by simp only; omega⟩
      · exact hopened snap hsnap
  | @revertTo id _ hrevert =>
    obtain ⟨skipped, snap, older, hsplit, hid, hskipped, rfl⟩ := revertTo_eq_ok.mp hrevert
    -- The numbers of the snapshots of `b` had been given out before.
    have hsnap : snap ∉ b.snapshots := by
      intro hmem
      have hlt := hb.openSnapshots snap hmem
      have hfloor : b.nextSnapshot ≤ id := hop
      omega
    rw [hsnapshots] at hsplit
    obtain ⟨rest, rfl, hrest⟩ := exists_rest_of_not_mem hsplit hsnap
    -- It stays above `b`, because its mark keeps the notes of `b`.
    have hopened' : b.OpenedOn rest := fun snap' hsnap' =>
      hopened snap' (by rw [hrest]; simp [hsnap'])
    obtain ⟨-, hmark⟩ := hopened snap (by rw [hrest]; simp)
    refine ⟨hsound, ?_, ⟨rest, snapshots_undoMany _ _, hopened'⟩, ?_⟩
    · have hclosed : b.Rewinds { s with snapshots := rest ++ b.snapshots } :=
        hrewinds.of_agree ⟨fun _ => rfl, rfl, rfl⟩
      exact hclosed.unwind hmark
    · rw [nextSnapshot_undoMany]
      exact hle

/-- So any program that the journal can take back keeps the invariant. -/
theorem Extends.after {b s : Store} {ops : List Operation} (hb : b.Sound) (h : b.Extends s)
    (hops : ∀ op ∈ ops, op.IsJournaled b.nextSnapshot) : b.Extends (s.after ops) := by
  induction ops generalizing s with
  | nil => exact h
  | cons op ops ih =>
    refine ih (h.move hb (perform_move s op) (hops op List.mem_cons_self)) fun op' hop' => ?_
    exact hops op' (List.mem_cons_of_mem _ hop')

/-- Going back to a snapshot finds the store as it was when the snapshot was taken. -/
theorem revertTo_extends {s u : Store} (hu : s.snapshot.2.Extends u) :
    ∃ t, u.revertTo s.snapshot.1 = .ok t ∧ t.Agree s ∧ t.snapshots = s.snapshots ∧ t.Sound := by
  obtain ⟨hsound, hrewinds, ⟨newer, hsnapshots, hopened⟩, -⟩ := hu
  obtain ⟨n, hlen, hn⟩ := hrewinds
  -- Snapshots taken since then have later numbers, so the search passes over them.
  have hskipped : ∀ snap ∈ newer, snap.id ≠ s.nextSnapshot := fun snap hsnap => by
    obtain ⟨hle, -⟩ : s.nextSnapshot + 1 ≤ snap.id ∧ _ := hopened snap hsnap
    omega
  have hrevert : u.revertTo s.snapshot.1 =
      .ok ({ u with snapshots := s.snapshots }.undoMany (u.journal.length - s.journal.length)) :=
    revertTo_eq_ok.mpr ⟨newer, ⟨s.nextSnapshot, s.journal.length⟩, s.snapshots, hsnapshots, rfl,
      hskipped, rfl⟩
  refine ⟨_, hrevert, ?_, ?_, ?_⟩
  · -- What is taken back are just the notes since the snapshot.
    have hn' : u.journal.length - s.journal.length = n := by
      have hsame : s.snapshot.2.journal.length = s.journal.length := rfl
      omega
    rw [hn']
    have hclosed : { u with snapshots := s.snapshots }.Agree u := ⟨fun _ => rfl, rfl, rfl⟩
    exact ((hclosed.undoMany n).trans hn).trans ⟨fun _ => rfl, rfl, rfl⟩
  · exact snapshots_undoMany _ _
  · exact hsound.move (.revertTo hrevert)

end Store

end BridgeMint
