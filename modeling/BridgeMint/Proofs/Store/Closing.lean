import BridgeMint.Proofs.Store.Supply

/-!
# Going back, whatever was done

A program may commit, drop logs, or go back further than a snapshot was taken.  Then the snapshot is closed
for good, since numbers are not given out twice, and going back to it is refused.  As long as it is open,
the notes made since take the accounts back to where they were.  So whenever going back succeeds, it finds
the accounts as they were, and nothing has to be asked of the program in between.
-/

namespace BridgeMint

namespace Store

/-! ## Without the logs

Dropping the logs is the one thing that the journal does not know and that leaves snapshots open.  A program
is therefore followed on the store without its logs, where dropping them does nothing.
-/

theorem write_clearLogs (s : Store) (a : Address) (m : Amendment) :
    s.clearLogs.write a m = (s.write a m).clearLogs := by
  rw [write_eq, write_eq]
  rfl

/-- Taking back a change does not look at the logs: the only one that touches them drops the newest, and
there is none. -/
theorem undo_clearLogs (s : Store) (c : Change) : s.clearLogs.undo c = (s.undo c).clearLogs := by
  rcases undo_cases c with ⟨a, rfl⟩ | ⟨i, rfl⟩ | ⟨a, -, -, h⟩
  · rfl
  · rfl
  · rw [h, h]
    simp only [restore, clearLogs]
    split <;> rfl

/-- The journal is the same without the logs, so the same change is taken back. -/
theorem undoNewest_clearLogs (s : Store) : s.clearLogs.undoNewest = s.undoNewest.clearLogs := by
  unfold undoNewest
  cases h : s.journal.newestFirst with
  | nil => simp only [clearLogs, h]
  | cons c older =>
    simp only [clearLogs, h]
    exact undo_clearLogs { s with journal := ⟨older⟩ } c

theorem undoMany_clearLogs (s : Store) (n : Nat) :
    s.clearLogs.undoMany n = (s.undoMany n).clearLogs := by
  induction n generalizing s with
  | zero => rfl
  | succ n ih => rw [undoMany, undoNewest_clearLogs, ih, undoMany]

/-- Going back finds the same snapshot without the logs, since the open snapshots and the journal are the
same. -/
theorem revertTo_clearLogs {s t : Store} {id : Nat} (h : s.revertTo id = .ok t) :
    s.clearLogs.revertTo id = .ok t.clearLogs := by
  obtain ⟨newer, snap, older, hsnapshots, hid, hnewer, rfl⟩ := revertTo_eq_ok.mp h
  refine revertTo_eq_ok.mpr ⟨newer, snap, older, hsnapshots, hid, hnewer, ?_⟩
  exact (undoMany_clearLogs { s with snapshots := older } _).symm

/-- What an operation does without the logs: the same, or it adds a log that is dropped again, or it
drops the logs. -/
theorem Extends.clearLogs_move {b s t : Store} {op : Operation} (hb : b.clearLogs.Sound)
    (h : b.clearLogs.Extends s.clearLogs) (hmove : Move s op t)
    (hop : op.IsJournaled b.nextSnapshot ∨ op = .clearLogs) : b.clearLogs.Extends t.clearLogs := by
  rcases hop with hop | rfl
  · cases hmove with
    | keep => exact h
    | write hamends =>
      rw [← write_clearLogs]
      exact h.move hb (.write hamends) hop
    | selectTx i => exact h.move hb (.selectTx i) hop
    | addLog log =>
      -- The note of the log takes back nothing, because no log is there.
      have hadded : s.clearLogs.Rewinds (s.addLog log).clearLogs :=
        ⟨1, rfl, ⟨fun _ => rfl, rfl, rfl⟩⟩
      obtain ⟨hsound, hrewinds, hsnapshots, hle⟩ := h
      have hsound' := hsound.move (.addLog log)
      exact ⟨⟨hsound'.records, hsound'.notedCode, hsound'.openSnapshots⟩, hrewinds.trans hadded,
        hsnapshots, hle⟩
    | clearLogs => exact hop.elim
    | snapshot => exact h.move hb .snapshot hop
    | revertTo hrevert => exact h.move hb (.revertTo (revertTo_clearLogs hrevert)) hop
    | commit => exact hop.elim
  · -- Without the logs there is nothing to drop.
    cases hmove with
    | write hamends => cases hamends
    | _ => exact h

/-- A whole program that may drop logs extends the store that has none. -/
theorem Extends.clearLogs_after {b s : Store} {ops : List Operation} (hb : b.clearLogs.Sound)
    (h : b.clearLogs.Extends s.clearLogs)
    (hops : ∀ op ∈ ops, op.IsJournaled b.nextSnapshot ∨ op = .clearLogs) :
    b.clearLogs.Extends (s.after ops).clearLogs := by
  -- By induction on the program: each operation is one step of `clearLogs_move`.
  induction ops generalizing s with
  | nil => exact h
  | cons op ops ih =>
    obtain ⟨hop, hrest⟩ := List.forall_mem_cons.mp hops
    exact ih (h.clearLogs_move hb (perform_move s op) hop) hrest

/-- A program that commits nothing and goes back to its own snapshots only leaves the snapshot before it
open. -/
theorem exists_revertTo_after {s : Store} {ops : List Operation} (hs : s.Sound)
    (hops : ∀ op ∈ ops, op.IsJournaled s.snapshot.2.nextSnapshot ∨ op = .clearLogs) :
    ∃ t, (s.snapshot.2.after ops).revertTo s.snapshot.1 = .ok t := by
  have hb : s.snapshot.2.clearLogs.Sound := (hs.move .snapshot).move .clearLogs
  have hextends := (Extends.refl hb).clearLogs_after hb hops
  obtain ⟨t, hrevert, -⟩ := revertTo_extends (s := s.clearLogs) hextends
  -- Which snapshots are open has nothing to do with the logs.
  obtain ⟨newer, snap, older, hsnapshots, hid, hnewer, -⟩ := revertTo_eq_ok.mp hrevert
  exact ⟨_, revertTo_eq_ok.mpr ⟨newer, snap, older, hsnapshots, hid, hnewer, rfl⟩⟩

/-! ## Closed snapshots -/

/-- The number has been given out, and no open snapshot has it. -/
structure Closed (id : Nat) (s : Store) : Prop where
  given : id < s.nextSnapshot
  not_open : ∀ snap ∈ s.snapshots, snap.id ≠ id

/-- Going back to a closed snapshot is refused. -/
theorem Closed.revertTo_eq_error {s : Store} {id : Nat} (h : Closed id s) :
    s.revertTo id = .error (.unknownSnapshot id) :=
  Store.revertTo_eq_error h.not_open

/-- A closed snapshot stays closed, whatever is done: numbers are not given out a second time, and no
operation opens an old one. -/
theorem Closed.move {s t : Store} {id : Nat} {op : Operation} (h : Closed id s) (hmove : Move s op t) :
    Closed id t := by
  obtain ⟨hgiven, hopen⟩ := h
  cases hmove with
  | keep => exact ⟨hgiven, hopen⟩
  | write _ =>
    refine ⟨?_, ?_⟩
    · rw [nextSnapshot_write]
      exact hgiven
    · rw [snapshots_write]
      exact hopen
  | selectTx i => exact ⟨hgiven, hopen⟩
  | addLog log => exact ⟨hgiven, hopen⟩
  | clearLogs => exact ⟨hgiven, hopen⟩
  | snapshot =>
    -- The new snapshot has a number that had not been given out.
    exact ⟨Nat.lt_succ_of_lt hgiven, List.forall_mem_cons.mpr ⟨Nat.ne_of_gt hgiven, hopen⟩⟩
  | revertTo hrevert =>
    obtain ⟨newer, snap, older, hsnapshots, hid, hnewer, -⟩ := revertTo_eq_ok.mp hrevert
    refine ⟨?_, ?_⟩
    · rw [nextSnapshot_revertTo hrevert]
      exact hgiven
    · rw [snapshots_of_revertTo hrevert hsnapshots hid hnewer]
      intro snap' hsnap'
      -- What is left open was open before.
      apply hopen
      rw [hsnapshots]
      exact List.mem_append_right _ (List.mem_cons_of_mem _ hsnap')
  | commit => exact ⟨hgiven, fun _ hsnap => (List.not_mem_nil hsnap).elim⟩

/-- Going back to a snapshot that is not one of the newer ones closes the snapshot below them too. -/
theorem forall_older_ne {newer before skipped older : List Snapshot} {snap found : Snapshot}
    (hsplit : newer ++ snap :: before = skipped ++ found :: older) (hfound : found ∉ newer)
    (hbefore : ∀ s ∈ before, s.id ≠ snap.id) : ∀ s ∈ older, s.id ≠ snap.id := by
  have hsuffix : ∃ l, before = l ++ older := by
    -- One of `newer` and `skipped` is the beginning of the other.
    rcases List.append_eq_append_iff.mp hsplit with ⟨l, -, hl⟩ | ⟨l, hl, hl'⟩
    · obtain _ | ⟨x, l⟩ := l
      · obtain ⟨-, hbefore⟩ := List.cons.inj hl
        exact ⟨[], hbefore⟩
      · obtain ⟨-, hbefore⟩ := List.cons.inj hl
        exact ⟨l ++ [found], by simpa using hbefore⟩
    · cases l with
      | nil =>
        obtain ⟨-, holder⟩ := List.cons.inj hl'
        exact ⟨[], holder.symm⟩
      | cons x l =>
        -- Then the one that is found would stand among the newer ones.
        rw [List.cons_append, List.cons.injEq] at hl'
        obtain ⟨rfl, -⟩ := hl'
        exact absurd (by rw [hl]; simp) hfound
  obtain ⟨l, rfl⟩ := hsuffix
  exact fun s hs => hbefore s (List.mem_append_right _ hs)

/-! ## A snapshot and the program after it -/

/-- The state of the snapshot that was taken in `s`, after a program has come to `u`: it is closed, or going
back to it would find the accounts of `s`. -/
def Kept (s u : Store) : Prop :=
  Closed s.nextSnapshot u ∨ s.snapshot.2.clearLogs.Extends u.clearLogs

/-- No operation loses the snapshot without closing it. -/
theorem Kept.move {s u v : Store} {op : Operation} (hs : s.Sound) (h : Kept s u)
    (hmove : Move u op v) : Kept s v := by
  have hb : s.snapshot.2.clearLogs.Sound := (hs.move .snapshot).move .clearLogs
  rcases h with hclosed | hextends
  · exact .inl (hclosed.move hmove)
  · -- Only a commit and going back further than the snapshot close it.
    by_cases hop : op.IsJournaled s.snapshot.2.nextSnapshot ∨ op = .clearLogs
    · exact .inr (hextends.clearLogs_move hb hmove hop)
    · have hgiven : s.nextSnapshot < u.nextSnapshot := hextends.nextSnapshot_le
      obtain ⟨newer, hsnapshots, hopened⟩ := hextends.snapshots
      have hbefore : ∀ snap ∈ s.snapshots, snap.id ≠ s.nextSnapshot := fun snap hsnap =>
        Nat.ne_of_lt (hs.openSnapshots snap hsnap)
      cases hmove with
      | keep => exact .inr hextends
      | @revertTo id _ hrevert =>
        obtain ⟨skipped, found, older, hsplit, hid, hskipped, -⟩ := revertTo_eq_ok.mp hrevert
        have hold : id < s.nextSnapshot + 1 := Nat.lt_of_not_le fun hle => hop (.inl hle)
        have hfound : found ∉ newer := by
          intro hmem
          obtain ⟨hlater, -⟩ := hopened found hmem
          have hlater' : s.nextSnapshot + 1 ≤ found.id := hlater
          omega
        left
        refine ⟨?_, ?_⟩
        · rw [nextSnapshot_revertTo hrevert]
          exact hgiven
        · rw [snapshots_of_revertTo hrevert hsplit hid hskipped]
          exact forall_older_ne (hsnapshots.symm.trans hsplit) hfound hbefore
      | commit =>
        left
        exact ⟨hgiven, fun _ hsnap => (List.not_mem_nil hsnap).elim⟩
      | clearLogs => exact absurd (.inr rfl) hop
      | write hamends => exact absurd (.inl (by cases hamends <;> trivial)) hop
      | _ => exact absurd (.inl trivial) hop

/-- Nor does a program. -/
theorem Kept.after {s u : Store} (hs : s.Sound) (h : Kept s u) (ops : List Operation) :
    Kept s (u.after ops) := by
  induction ops generalizing u with
  | nil => exact h
  | cons op ops ih => exact ih (h.move hs (perform_move u op))

theorem kept_snapshot {s : Store} (hs : s.Sound) : Kept s s.snapshot.2 :=
  .inr (.refl ((hs.move .snapshot).move .clearLogs))

/-- Whatever a program did since a snapshot, if it can still be gone back to, the accounts and the journal
are as they were when it was taken. -/
theorem agree_of_revertTo {s t : Store} {ops : List Operation} (hs : s.Sound)
    (h : (s.snapshot.2.after ops).revertTo s.snapshot.1 = .ok t) : t.clearLogs.Agree s.clearLogs := by
  rcases (kept_snapshot hs).after hs ops with hclosed | hextends
  · -- A closed snapshot is not gone back to.
    have hrefused := hclosed.revertTo_eq_error
    rw [show s.nextSnapshot = s.snapshot.1 from rfl, h] at hrefused
    cases hrefused
  · -- Without the logs, the snapshot is one of the store without its logs.
    obtain ⟨t', hrevert, hagree, -⟩ := revertTo_extends (s := s.clearLogs) hextends
    have hback := revertTo_clearLogs h
    rw [show s.clearLogs.snapshot.1 = s.snapshot.1 from rfl, hback] at hrevert
    cases hrevert
    exact hagree

end Store

end BridgeMint
