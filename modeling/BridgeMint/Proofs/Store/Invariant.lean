import BridgeMint.Proofs.Store.Undo
import Mathlib.Data.List.TakeWhile

/-!
# What holds of every store

In every store that comes about, each record carries the digest of its code and stores no zero word,
no note in the journal holds code with the digest of the empty byte string, and the numbers of open
snapshots have been given out.
-/

namespace BridgeMint

namespace Store

/-- What holds of every store that comes about. -/
structure Sound (s : Store) : Prop where
  records : ∀ a r, s.accounts.get? a = some r → r.Sound
  /-- Code noted in the journal is told from no code by its digest. -/
  notedCode : ∀ a c, .codeSet a (some c) ∈ s.journal.newestFirst → Word.keccak256 c ≠ .emptyDigest
  openSnapshots : ∀ snap ∈ s.snapshots, snap.id < s.nextSnapshot

/-- What is read of an account is sound, also if there is no such account. -/
theorem Sound.record {s : Store} (hs : s.Sound) (a : Address) : (s.record a).Sound := by
  simp only [Store.record]
  cases h : s.accounts.get? a with
  | none => exact AccountRecord.sound_fresh
  | some r => exact hs.records a r h

/-- What holds of a fresh record, whatever its balance, holds of all records a chain starts with. -/
theorem forall_withBalances {P : AccountRecord → Prop} (hfresh : P .fresh)
    (hbalance : ∀ r b, P r → P (r.withBalance b)) (balances : List (Address × UInt256)) :
    ∀ a r, (withBalances balances).accounts.get? a = some r → P r := by
  -- The fold starts from any accounts that have the property.
  have hfold : ∀ accounts : SortedMap Address AccountRecord,
      (∀ a r, accounts.get? a = some r → P r) →
      ∀ a r, (balances.foldl (fun accounts entry =>
        accounts.insert entry.1 (((accounts.get? entry.1).getD .fresh).withBalance entry.2))
        accounts).get? a = some r → P r := by
    induction balances with
    | nil => exact fun accounts h => h
    | cons entry balances ih =>
      intro accounts h
      refine ih _ fun a r hget => ?_
      rw [SortedMap.get?_insert] at hget
      split at hget
      · cases hget
        -- The record that gets the balance is a fresh one, or one from before.
        cases hold : accounts.get? entry.1 with
        | none => exact hbalance _ _ hfresh
        | some old => exact hbalance _ _ (h _ _ hold)
      · exact h a r hget
  exact hfold .empty fun a r h => by simp at h

theorem sound_withBalances (balances : List (Address × UInt256)) : (withBalances balances).Sound := by
  refine ⟨?_, fun _ _ h => (List.not_mem_nil h).elim, fun _ h => (List.not_mem_nil h).elim⟩
  exact forall_withBalances AccountRecord.sound_fresh (fun r b h => h.apply (.balance b)) balances

/-- Writes keep stores sound. -/
theorem Sound.write {s : Store} (hs : s.Sound) (a : Address) (m : Amendment) :
    (s.write a m).Sound := by
  refine ⟨fun a' r hget => ?_, fun a' c hmem => ?_, ?_⟩
  · -- The record that was written to is amended, and the others are as they were.
    rw [get?_write] at hget
    split at hget
    · cases hget
      exact (hs.record a).apply m
    · exact hs.records a' r hget
  · rw [journal_write] at hmem
    rcases List.mem_append.mp hmem with hmem | hmem
    · -- The other note, that an account was created, does not hold code.
      have hnote : .codeSet a' (some c) = m.change a (s.record a) := by
        rcases List.mem_cons.mp hmem with h | h
        · exact h
        · split at h <;> simp at h
      -- Only the note of new code holds code, and that code is the record's.
      cases m with
      | code code =>
        simp only [Amendment.change, Change.codeSet.injEq] at hnote
        obtain ⟨-, hcode⟩ := hnote
        obtain ⟨hhash, rfl⟩ := AccountRecord.code?_eq_some.mp hcode.symm
        rw [← (hs.record a).codeHash_eq]
        exact hhash
      | _ => cases hnote
    · exact hs.notedCode a' c hmem
  · simpa using hs.openSnapshots

/-- Taking back a change keeps stores sound. -/
theorem Sound.undoNewest {s : Store} (hs : s.Sound) : s.undoNewest.Sound := by
  unfold Store.undoNewest
  split
  · exact hs
  · next c older hjournal =>
    obtain ⟨hjournal', hsnapshots', -, hnext'⟩ := undo_rest { s with journal := ⟨older⟩ } c
    refine ⟨fun a r hget => ?_, fun a code hmem => ?_, fun snap hsnap => ?_⟩
    · -- A record that is left was there before, or was put back from one that was.
      rcases undo_cases c with ⟨b, rfl⟩ | ⟨i, rfl⟩ | ⟨b, -, -, h⟩
      · simp only [undo, SortedMap.get?_erase] at hget
        split at hget
        · cases hget
        · exact hs.records a r hget
      · exact hs.records a r hget
      · rw [h, get?_restore] at hget
        split at hget
        · obtain ⟨old, hold, rfl⟩ := Option.map_eq_some_iff.mp hget
          exact Change.sound_takeBack (hs.records b old hold) c
        · exact hs.records a r hget
    · -- The notes that are left are some of those there were.
      rw [hjournal'] at hmem
      exact hs.notedCode a code (hjournal ▸ List.mem_cons_of_mem _ hmem)
    · rw [hsnapshots'] at hsnap
      rw [hnext']
      exact hs.openSnapshots snap hsnap

/-! ## Going back

The open snapshots are searched from the newest one; the ones skipped are closed together with the one
that is found.
-/

/-- The first entry of a list that has a given number: those in front of it have others. -/
theorem dropWhile_ne_eq_cons {α : Type} {key : α → Nat} {id : Nat} {l older : List α} {x : α} :
    l.dropWhile (fun y => decide (key y ≠ id)) = x :: older ↔
      ∃ newer, l = newer ++ x :: older ∧ key x = id ∧ ∀ y ∈ newer, key y ≠ id := by
  induction l with
  | nil => simp
  | cons y l ih =>
    by_cases hy : key y = id
    · rw [List.dropWhile_cons_of_neg (by simpa using hy)]
      constructor
      · intro h
        cases h
        exact ⟨[], rfl, hy, fun _ h => (List.not_mem_nil h).elim⟩
      · rintro ⟨newer, h, -, hnewer⟩
        cases newer with
        | nil => exact h
        | cons z newer =>
          -- The entry itself has the number, so there is none in front of it.
          cases h
          exact absurd hy (hnewer y List.mem_cons_self)
    · -- The first entry is passed over, so it is one of those in front.
      rw [List.dropWhile_cons_of_pos (by simpa using hy), ih]
      constructor
      · rintro ⟨newer, rfl, hx, hnewer⟩
        exact ⟨y :: newer, rfl, hx, List.forall_mem_cons.mpr ⟨hy, hnewer⟩⟩
      · rintro ⟨newer, h, hx, hnewer⟩
        cases newer with
        | nil =>
          cases h
          exact absurd hx hy
        | cons z newer =>
          cases h
          obtain ⟨-, hothers⟩ := List.forall_mem_cons.mp hnewer
          exact ⟨newer, rfl, hx, hothers⟩

/-- Going back finds the newest open snapshot with the number and takes back what came after it. -/
theorem revertTo_eq_ok {s t : Store} {id : Nat} :
    s.revertTo id = .ok t ↔
      ∃ newer snap older, s.snapshots = newer ++ snap :: older ∧ snap.id = id ∧
        (∀ n ∈ newer, n.id ≠ id) ∧
        t = { s with snapshots := older }.undoMany (s.journal.length - snap.mark) := by
  simp only [revertTo, unwind_eq_undoMany]
  constructor
  · intro h
    -- The search ends with nothing, or at a snapshot with the number.
    split at h
    · cases h
    · next snap older hdrop =>
      obtain ⟨newer, hsnapshots, hid, hnewer⟩ := dropWhile_ne_eq_cons.mp hdrop
      exact ⟨newer, snap, older, hsnapshots, hid, hnewer, (Except.ok.inj h).symm⟩
  · rintro ⟨newer, snap, older, hsnapshots, hid, hnewer, rfl⟩
    have hdrop := dropWhile_ne_eq_cons.mpr ⟨newer, hsnapshots, hid, hnewer⟩
    simp only [hdrop]

theorem revertTo_eq_error {s : Store} {id : Nat} (h : ∀ snap ∈ s.snapshots, snap.id ≠ id) :
    s.revertTo id = .error (.unknownSnapshot id) := by
  have hnone : s.snapshots.dropWhile (fun snap => decide (snap.id ≠ id)) = [] := by
    rw [List.dropWhile_eq_nil_iff]
    simpa using h
  simp only [revertTo, hnone]

/-- Going back leaves the selected transaction and the numbers given out alone. -/
theorem revertTo_rest {s t : Store} {id : Nat} (h : s.revertTo id = .ok t) :
    t.txIndex = s.txIndex ∧ t.nextSnapshot = s.nextSnapshot := by
  obtain ⟨newer, snap, older, -, -, -, rfl⟩ := revertTo_eq_ok.mp h
  obtain ⟨-, hrest⟩ := undoMany_rest { s with snapshots := older } (s.journal.length - snap.mark)
  exact hrest

theorem nextSnapshot_revertTo {s t : Store} {id : Nat} (h : s.revertTo id = .ok t) :
    t.nextSnapshot = s.nextSnapshot := by
  obtain ⟨-, hnext⟩ := revertTo_rest h
  exact hnext

/-- The snapshots left open after going back are those older than the one gone back to. -/
theorem snapshots_of_revertTo {s t : Store} {id : Nat} {newer older : List Snapshot} {snap : Snapshot}
    (h : s.revertTo id = .ok t) (hsnapshots : s.snapshots = newer ++ snap :: older)
    (hid : snap.id = id) (hnewer : ∀ n ∈ newer, n.id ≠ id) : t.snapshots = older := by
  have hback := revertTo_eq_ok.mpr ⟨newer, snap, older, hsnapshots, hid, hnewer, rfl⟩
  rw [h] at hback
  cases hback
  exact snapshots_undoMany { s with snapshots := older } _

/-- Snapshots may be closed. -/
theorem Sound.closed {s : Store} (hs : s.Sound) {newer older : List Snapshot} {snap : Snapshot}
    (h : s.snapshots = newer ++ snap :: older) : { s with snapshots := older }.Sound := by
  refine ⟨hs.records, hs.notedCode, ?_⟩
  intro snap' hsnap'
  apply hs.openSnapshots
  rw [h]
  exact List.mem_append_right _ (List.mem_cons_of_mem _ hsnap')

/-- Taking back any number of changes keeps stores sound. -/
theorem undoMany_sound {s : Store} (hs : s.Sound) (n : Nat) : (s.undoMany n).Sound :=
  undoMany_induction (fun _ h => h.undoNewest) n hs

/-- So does every operation, whichever way the store moves. -/
theorem Sound.move {s t : Store} {op : Operation} (hs : s.Sound) (h : Move s op t) : t.Sound := by
  cases h with
  | keep => exact hs
  | write _ => exact hs.write _ _
  | selectTx i => exact ⟨hs.records, hs.notedCode, hs.openSnapshots⟩
  | addLog log =>
    refine ⟨hs.records, fun a c hmem => ?_, hs.openSnapshots⟩
    -- The note of a log holds no code.
    rcases List.mem_cons.mp hmem with h | h
    · cases h
    · exact hs.notedCode a c h
  | clearLogs => exact ⟨hs.records, hs.notedCode, hs.openSnapshots⟩
  | snapshot =>
    refine ⟨hs.records, hs.notedCode, fun snap hsnap => ?_⟩
    rcases List.mem_cons.mp hsnap with rfl | h
    · -- The new snapshot has the number that was next.
      exact Nat.lt_succ_self _
    · exact Nat.lt_succ_of_lt (hs.openSnapshots snap h)
  | revertTo h =>
    -- Going back closes snapshots and takes changes back.
    obtain ⟨newer, snap, older, hsnapshots, -, -, rfl⟩ := revertTo_eq_ok.mp h
    exact undoMany_sound (hs.closed hsnapshots) _
  | commit =>
    exact ⟨hs.records, fun _ _ h => (List.not_mem_nil h).elim, fun _ h => (List.not_mem_nil h).elim⟩

/-- Every store that comes about is sound. -/
theorem Reachable.sound {s : Store} (hs : s.Reachable) : s.Sound := by
  induction hs with
  | withBalances balances => exact sound_withBalances balances
  | perform op _ ih => exact ih.move (perform_move _ op)

end Store

end BridgeMint
