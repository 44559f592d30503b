import BridgeMint.Proofs.Store.Invariant

/-!
# The numbers of snapshots

Snapshots are numbered in the order they are opened in, and no number is given out again, not even after
the store went back or was committed.  Going back to a number works exactly as long as its snapshot is
open, and the history of the store tells which are: a commit closes all of them, and going back closes the
one gone back to and those opened after it.
-/

namespace BridgeMint

/-! ## Histories -/

/-- The operations on a store with the replies they got, oldest first. -/
abbrev History := List (Operation × Reply)

namespace History

/-- The number that a step gives to a snapshot. -/
def given? : Operation × Reply → Option Nat
  | (.snapshot, .snapshot id) => some id
  | _ => none

/-- The numbers that have been given to snapshots. -/
def given (history : History) : List Nat :=
  history.filterMap given?

/-- The steps that close a snapshot: commits, and going back to it or to one with a lower number. -/
def Closes (id : Nat) : Operation × Reply → Prop
  | (.commit, _) => True
  | (.revertTo target, .done) => target ≤ id
  | _ => False

/-- A snapshot got the number and no step closed it since. -/
def IsOpen (history : History) (id : Nat) : Prop :=
  ∃ before since, history = before ++ (.snapshot, .snapshot id) :: since ∧
    ∀ step ∈ since, ¬ Closes id step

/-- One more step gives out at most one more number, and gives it out last. -/
theorem given_concat (history : History) (step : Operation × Reply) :
    given (history ++ [step]) = history.given ++ (given? step).toList := by
  rw [given, List.filterMap_append]
  cases h : given? step <;> simp [h, given]

theorem not_isOpen_nil (id : Nat) : ¬ IsOpen [] id := by
  rintro ⟨before, since, h, -⟩
  simp at h

/-- After one more step those snapshots are open that it opens or does not close. -/
theorem isOpen_concat {history : History} {step : Operation × Reply} {id : Nat} :
    IsOpen (history ++ [step]) id ↔
      step = (.snapshot, .snapshot id) ∨ (history.IsOpen id ∧ ¬ Closes id step) := by
  constructor
  · rintro ⟨before, since, hhistory, hsince⟩
    rcases List.eq_nil_or_concat' since with rfl | ⟨rest, last, rfl⟩
    · -- The snapshot was taken last.
      obtain ⟨-, hstep⟩ := List.append_inj' hhistory rfl
      obtain ⟨hlast, -⟩ := List.cons.inj hstep
      exact .inl hlast
    · -- The snapshot was taken earlier, and the last step is one of those that did not close it.
      rw [← List.cons_append, ← List.append_assoc] at hhistory
      obtain ⟨rfl, hstep⟩ := List.append_inj' hhistory rfl
      obtain ⟨rfl, -⟩ := List.cons.inj hstep
      refine .inr ⟨⟨before, rest, rfl, fun s hs => ?_⟩, ?_⟩
      · exact hsince s (List.mem_append_left _ hs)
      · exact hsince step (by simp)
  · rintro (rfl | ⟨⟨before, since, rfl, hsince⟩, hlast⟩)
    · exact ⟨history, [], rfl, fun s hs => (List.not_mem_nil hs).elim⟩
    · refine ⟨before, since ++ [step], by simp, fun s hs => ?_⟩
      rcases List.mem_append.mp hs with hs | hs
      · exact hsince s hs
      · rw [List.mem_singleton.mp hs]
        exact hlast

/-- Only numbers that have been given out can be open. -/
theorem IsOpen.mem_given {history : History} {id : Nat} (h : history.IsOpen id) : id ∈ history.given := by
  obtain ⟨before, since, rfl, -⟩ := h
  exact List.mem_filterMap.mpr ⟨(.snapshot, .snapshot id), by simp, rfl⟩

end History

namespace Store

/-! ## The store keeps to its history -/

/-- The store has given out the numbers in order, and its open snapshots are those its history tells,
newest first. -/
structure Follows (history : History) (s : Store) : Prop where
  given_eq : history.given = List.range s.nextSnapshot
  open_iff : ∀ id, (∃ snap ∈ s.snapshots, snap.id = id) ↔ history.IsOpen id
  descending : s.snapshots.Pairwise fun newer older => older.id < newer.id

theorem follows_withBalances (balances : List (Address × UInt256)) :
    Follows [] (withBalances balances) := by
  refine ⟨rfl, fun id => ⟨?_, fun h => (History.not_isOpen_nil id h).elim⟩, .nil⟩
  rintro ⟨snap, hsnap, -⟩
  exact (List.not_mem_nil hsnap).elim

variable {history : History} {s t : Store}

/-- Open snapshots have numbers that were given out. -/
theorem Follows.lt_next (h : Follows history s) {snap : Snapshot} (hsnap : snap ∈ s.snapshots) :
    snap.id < s.nextSnapshot := by
  have hgiven := ((h.open_iff snap.id).mp ⟨snap, hsnap, rfl⟩).mem_given
  rw [h.given_eq] at hgiven
  exact List.mem_range.mp hgiven

/-- A step that neither opens nor closes snapshots. -/
theorem Follows.keep (h : Follows history s) {step : Operation × Reply}
    (hgiven : History.given? step = none) (hcloses : ∀ id, ¬ History.Closes id step)
    (hsnapshots : t.snapshots = s.snapshots) (hnext : t.nextSnapshot = s.nextSnapshot) :
    Follows (history ++ [step]) t := by
  refine ⟨?_, fun id => ?_, by rw [hsnapshots]; exact h.descending⟩
  · rw [History.given_concat, hgiven, hnext, h.given_eq]
    exact List.append_nil _
  · rw [hsnapshots, h.open_iff, History.isOpen_concat]
    constructor
    · exact fun hopen => .inr ⟨hopen, hcloses id⟩
    · rintro (rfl | ⟨hopen, -⟩)
      · cases hgiven
      · exact hopen

/-- Opening a snapshot gives out the next number, and the new snapshot is open. -/
theorem Follows.snapshot (h : Follows history s) :
    Follows (history ++ [(.snapshot, .snapshot s.nextSnapshot)]) s.snapshot.2 := by
  refine ⟨?_, fun id => ?_, List.pairwise_cons.mpr ⟨fun snap hsnap => h.lt_next hsnap, h.descending⟩⟩
  · rw [History.given_concat, h.given_eq]
    exact List.range_succ.symm
  · rw [History.isOpen_concat, ← h.open_iff]
    constructor
    · rintro ⟨snap, hsnap, rfl⟩
      -- The newest snapshot was opened by this step, the others before it.
      rcases List.mem_cons.mp hsnap with rfl | hsnap
      · exact .inl rfl
      · exact .inr ⟨⟨snap, hsnap, rfl⟩, not_false⟩
    · rintro (hstep | ⟨⟨snap, hsnap, rfl⟩, -⟩)
      · cases hstep
        exact ⟨_, List.mem_cons_self, rfl⟩
      · exact ⟨snap, List.mem_cons_of_mem _ hsnap, rfl⟩

/-- A commit closes every snapshot and gives out no number. -/
theorem Follows.commit (h : Follows history s) : Follows (history ++ [(.commit, .done)]) s.commit := by
  refine ⟨?_, fun id => ?_, .nil⟩
  · rw [History.given_concat, h.given_eq]
    exact List.append_nil _
  · rw [History.isOpen_concat]
    constructor
    · rintro ⟨snap, hsnap, -⟩
      exact (List.not_mem_nil hsnap).elim
    · rintro (hstep | ⟨-, hcloses⟩)
      · cases hstep
      · exact (hcloses trivial).elim

/-- Going back leaves open the snapshots with a lower number than the one gone back to. -/
theorem Follows.revertTo (h : Follows history s) {target : Nat} (hback : s.revertTo target = .ok t) :
    Follows (history ++ [(.revertTo target, .done)]) t := by
  obtain ⟨newer, snap, older, hsnapshots, hid, hnewer, -⟩ := revertTo_eq_ok.mp hback
  have holder := snapshots_of_revertTo hback hsnapshots hid hnewer
  obtain ⟨-, hnext⟩ := revertTo_rest hback
  have hdescending := h.descending
  rw [hsnapshots, List.pairwise_append, List.pairwise_cons] at hdescending
  obtain ⟨-, ⟨hbelow, hdescending⟩, habove⟩ := hdescending
  refine ⟨?_, fun id => ?_, by rw [holder]; exact hdescending⟩
  · rw [History.given_concat, hnext, h.given_eq]
    exact List.append_nil _
  · rw [History.isOpen_concat, ← h.open_iff, holder, hsnapshots]
    constructor
    · -- Those left open are older than the one gone back to.
      rintro ⟨old, hold, rfl⟩
      have hlt := hbelow old hold
      exact .inr ⟨⟨old, by simp [hold], rfl⟩, Nat.not_le.mpr (hid ▸ hlt)⟩
    · rintro (hstep | ⟨⟨other, hother, rfl⟩, hcloses⟩)
      · cases hstep
      · have hlt : other.id < target := Nat.not_le.mp hcloses
        -- The skipped ones have higher numbers, and so has not the one gone back to.
        rcases List.mem_append.mp hother with hskipped | hrest
        · have hgt := habove other hskipped snap List.mem_cons_self
          omega
        · rcases List.mem_cons.mp hrest with rfl | hold
          · omega
          · exact ⟨other, hold, rfl⟩

/-- Going back works if the snapshot is open. -/
theorem exists_revertTo {s : Store} {id : Nat} (h : ∃ snap ∈ s.snapshots, snap.id = id) :
    ∃ t, s.revertTo id = .ok t := by
  simp only [revertTo]
  split
  · next hnone =>
    obtain ⟨snap, hsnap, hid⟩ := h
    rw [List.dropWhile_eq_nil_iff] at hnone
    exact absurd hid (of_decide_eq_true (hnone snap hsnap))
  · exact ⟨_, rfl⟩

end Store

namespace Ledger

open Store

variable {history : History} {ledger : Ledger}

/-- Going back works exactly if the snapshot is open; else it is refused and changes nothing. -/
theorem perform_revertTo_of_follows (h : Follows history ledger.store) (id : Nat) :
    ((ledger.perform (.revertTo id)).1 = .done ↔ history.IsOpen id) ∧
      (¬ history.IsOpen id →
        ledger.perform (.revertTo id) = (.refused (.unknownSnapshot id), ledger)) := by
  have hrefused : ¬ history.IsOpen id →
      ledger.perform (.revertTo id) = (.refused (.unknownSnapshot id), ledger) := by
    intro hclosed
    rw [← h.open_iff] at hclosed
    exact perform_revertTo_of_error (revertTo_eq_error fun snap hsnap hid => hclosed ⟨snap, hsnap, hid⟩)
  refine ⟨⟨fun hdone => ?_, fun hopen => ?_⟩, hrefused⟩
  · by_contra hclosed
    rw [hrefused hclosed] at hdone
    cases hdone
  · obtain ⟨t, ht⟩ := exists_revertTo ((h.open_iff id).mpr hopen)
    obtain ⟨hdone, -⟩ := perform_revertTo_of_ok ht
    exact hdone

/-- One operation: the store keeps to its history. -/
theorem follows_perform (h : Follows history ledger.store) (op : Operation) :
    Follows (history ++ [(op, (ledger.perform op).1)]) (ledger.perform op).2.store := by
  by_cases hmoves : op.MovesSnapshots
  · -- Each of the three operations has its own part in the history.
    cases op with
    | snapshot => exact h.snapshot
    | commit => exact h.commit
    | revertTo id =>
      cases hback : ledger.store.revertTo id with
      | ok t =>
        obtain ⟨hreply, hstore⟩ := perform_revertTo_of_ok hback
        rw [hreply, hstore]
        exact h.revertTo hback
      | error cause =>
        rw [perform_revertTo_of_error hback]
        exact h.keep rfl (fun _ => not_false) rfl rfl
    | _ => exact hmoves.elim
  · -- Whatever else is answered, it opens and closes nothing.
    obtain ⟨hsnapshots, hnext⟩ := (perform_move ledger.store op).snapshots_eq hmoves
    rw [store_perform]
    cases op with
    | snapshot => exact (hmoves trivial).elim
    | commit => exact (hmoves trivial).elim
    | revertTo id => exact (hmoves trivial).elim
    | _ => exact h.keep rfl (fun _ => not_false) hsnapshots hnext

/-- What a list of operations did. -/
def historyOf (ledger : Ledger) (ops : List Operation) : History :=
  ops.zip (ledger.performAll ops).1

/-- A list of operations: the store keeps to its history. -/
theorem follows_performAll (h : Follows history ledger.store) (ops : List Operation) :
    Follows (history ++ ledger.historyOf ops) (ledger.performAll ops).2.store := by
  -- The history grows at its end while the list is worked off from the front.
  induction ops generalizing history ledger with
  | nil =>
    rw [historyOf, List.zip_nil_left, List.append_nil]
    exact h
  | cons op ops ih =>
    have hrest := ih (follows_perform h op)
    rw [List.append_assoc] at hrest
    exact hrest

/-- Every snapshot that is opened gets a number. -/
theorem length_given_historyOf (ledger : Ledger) (ops : List Operation) :
    (ledger.historyOf ops).given.length = ops.count .snapshot := by
  induction ops generalizing ledger with
  | nil => rfl
  | cons op ops ih =>
    have hrest := ih (ledger.perform op).2
    -- Only a step that opens a snapshot gives out a number.
    by_cases hop : op = .snapshot
    · subst hop
      rw [List.count_cons_self, ← hrest]
      rfl
    · have hnone : History.given? (op, (ledger.perform op).1) = none := by
        cases op with
        | snapshot => exact absurd rfl hop
        | _ => rfl
      rw [List.count_cons_of_ne hop, ← hrest]
      exact congrArg List.length (List.filterMap_cons_none hnone)

/-- Every snapshot gets a number, and the numbers increase, so none is given out twice.  Going back to a
number works exactly if it was given out since the last commit and the store did not go back to it, or to a
lower one, since then.  Else it is refused, and nothing has changed: neither the ledger, nor what can be gone
back to. -/
theorem snapshot_numbers (balances : List (Address × UInt256)) (ops : List Operation) :
    let start := Ledger.ofStore (.withBalances balances)
    let history := start.historyOf ops
    let ledger := (start.performAll ops).2
    history.given.length = ops.count .snapshot ∧ history.given.Pairwise (· < ·) ∧
      ∀ id, ((ledger.perform (.revertTo id)).1 = .done ↔ history.IsOpen id) ∧
        (¬ history.IsOpen id →
          ledger.perform (.revertTo id) = (.refused (.unknownSnapshot id), ledger) ∧
          ∀ other, History.IsOpen (history ++ [(.revertTo id, .refused (.unknownSnapshot id))]) other ↔
            history.IsOpen other) := by
  intro start history ledger
  have hfollows : Follows history ledger.store := by
    have hstart : Follows [] start.store := follows_withBalances balances
    exact follows_performAll hstart ops
  refine ⟨length_given_historyOf start ops, ?_, fun id => ?_⟩
  · rw [hfollows.given_eq]
    exact List.pairwise_lt_range
  · obtain ⟨hdone, hrefused⟩ := perform_revertTo_of_follows hfollows id
    refine ⟨hdone, fun hclosed => ⟨hrefused hclosed, fun other => ?_⟩⟩
    -- A refused step is none that opens or closes.
    rw [History.isOpen_concat]
    constructor
    · rintro (hstep | ⟨hopen, -⟩)
      · cases hstep
      · exact hopen
    · exact fun hopen => .inr ⟨hopen, not_false⟩

/-- The store goes back to its first snapshot, opens another one, commits, and opens the last one. -/
def reopeningOps : List Operation :=
  [.snapshot, .setNonce (.ofNat 7) 1, .snapshot, .revertTo 0, .snapshot, .commit, .snapshot]

theorem snapshot_numbers_reopening :
    let start := Ledger.ofStore (.withBalances [(.ofNat 7, .ofNat 5)])
    let ledger := (start.performAll reopeningOps).2
    (start.historyOf reopeningOps).given = [0, 1, 2, 3] ∧
      (start.historyOf reopeningOps).IsOpen 3 ∧
      ledger.perform (.revertTo 1) = (.refused (.unknownSnapshot 1), ledger) := by
  intro start ledger
  obtain ⟨-, -, hback⟩ := snapshot_numbers [(.ofNat 7, .ofNat 5)] reopeningOps
  obtain ⟨hlast, -⟩ := hback 3
  obtain ⟨hreplaced, hrefused⟩ := hback 1
  have hclosed : ¬ (start.historyOf reopeningOps).IsOpen 1 := fun hopen =>
    absurd (hreplaced.mpr hopen) (by decide +kernel)
  obtain ⟨hunchanged, -⟩ := hrefused hclosed
  exact ⟨by decide +kernel, hlast.mp (by decide +kernel), hunchanged⟩

end Ledger

end BridgeMint
