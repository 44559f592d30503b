import BridgeMint.Proofs.Mint.Untouched
import BridgeMint.Proofs.Store.Revert

/-!
# Where logs stand

A log gets its place from the number of logs there are, and that number goes down again when logs are taken
back.  What is taken back are always the last logs, so those that stay keep the places they were given, and
a log that is added later gets the place that has become free.
-/

namespace BridgeMint

/-- Operations that leave alone for which transaction logs are added. -/
def Operation.KeepsTx : Operation → Prop
  | .selectTx _ => False
  | _ => True

/-- The logs carry the places from `start` on, in their order. -/
def Log.NumberedFrom (start : Nat) (logs : List Log) : Prop :=
  ∀ (j : Nat) (log : Log), logs[j]? = some log → log.logIndex = .ofNat (start + j)

namespace Log

theorem numberedFrom_nil (start : Nat) : NumberedFrom start [] := nofun

/-- In a list that is put together, the second part goes on where the first one ends. -/
theorem numberedFrom_append {start : Nat} {logs logs' : List Log} :
    NumberedFrom start (logs ++ logs') ↔
      NumberedFrom start logs ∧ NumberedFrom (start + logs.length) logs' := by
  constructor
  · intro h
    refine ⟨fun j log hlog => ?_, fun j log hlog => ?_⟩
    · apply h j log
      obtain ⟨hj, -⟩ := List.getElem?_eq_some_iff.mp hlog
      rw [List.getElem?_append_left hj]
      exact hlog
    · rw [Nat.add_assoc]
      apply h (logs.length + j) log
      rw [List.getElem?_append_right (Nat.le_add_right _ _), Nat.add_sub_cancel_left]
      exact hlog
  · rintro ⟨hleft, hright⟩ j log hlog
    -- A place is one of the first logs or one of the others.
    by_cases hj : j < logs.length
    · rw [List.getElem?_append_left hj] at hlog
      exact hleft j log hlog
    · have hle := Nat.le_of_not_lt hj
      rw [List.getElem?_append_right hle] at hlog
      have hplace := hright (j - logs.length) log hlog
      rw [Nat.add_assoc, Nat.add_sub_cancel' hle] at hplace
      exact hplace

theorem numberedFrom_singleton {start : Nat} {log : Log} (h : log.logIndex = .ofNat start) :
    NumberedFrom start [log] := by
  intro j log' hlog
  obtain ⟨hj, rfl⟩ := List.getElem?_eq_some_iff.mp hlog
  obtain rfl : j = 0 := by simpa using hj
  exact h

end Log

namespace Store

/-! ## Logs that have been added -/

/-- Since the store was `b`, logs have been added to those there were, each for the transaction of `b` and
with its place in the list. -/
def LogsAdded (b s : Store) (new : List Log) : Prop :=
  s.logs = b.logs ++ new ∧ Log.NumberedFrom b.logs.length new ∧ ∀ log ∈ new, log.txIndex = b.txIndex

theorem LogsAdded.of_logs_eq {b s : Store} (h : s.logs = b.logs) : LogsAdded b s [] :=
  ⟨by rw [h, List.append_nil], Log.numberedFrom_nil _, fun _ hlog => (List.not_mem_nil hlog).elim⟩

/-- The logs that were there before stay, if as many are taken back as were added. -/
theorem LogsAdded.of_initial {b s t : Store} {new : List Log} (h : LogsAdded b s new)
    (ht : t.logs <+: s.logs) (hb : b.logs <+: t.logs) : ∃ kept, LogsAdded b t kept := by
  obtain ⟨hlogs, hnumbered, htx⟩ := h
  obtain ⟨kept, hkept⟩ := hb
  obtain ⟨dropped, hdropped⟩ := ht
  -- The logs of `b` are there three times over, so what comes after them can be compared.
  have hnew : new = kept ++ dropped := by
    have hall : b.logs ++ new = b.logs ++ (kept ++ dropped) := by
      rw [← hlogs, ← hdropped, ← hkept, List.append_assoc]
    exact List.append_cancel_left hall
  rw [hnew, Log.numberedFrom_append] at hnumbered
  obtain ⟨hplaces, -⟩ := hnumbered
  refine ⟨kept, hkept.symm, hplaces, fun log hlog => htx log ?_⟩
  rw [hnew]
  exact List.mem_append_left _ hlog

/-- A log that is added gets the next place. -/
theorem LogsAdded.addLog {b s : Store} {new : List Log} (h : LogsAdded b s new)
    (htx : s.txIndex = b.txIndex) (log : Log) : LogsAdded b (s.addLog log) (new ++ [s.placed log]) := by
  obtain ⟨hlogs, hnumbered, hnew⟩ := h
  refine ⟨?_, Log.numberedFrom_append.mpr ⟨hnumbered, Log.numberedFrom_singleton ?_⟩, ?_⟩
  · rw [logs_addLog, hlogs, List.append_assoc]
  · show UInt32.ofNat s.logs.length = _
    rw [hlogs, List.length_append]
  · intro log' hlog'
    rcases List.mem_append.mp hlog' with hlog' | hlog'
    · exact hnew log' hlog'
    · rw [List.mem_singleton.mp hlog']
      exact htx

/-! ## Programs -/

/-- Taking back changes takes back some of the last logs. -/
theorem logs_undoMany_initial (s : Store) (n : Nat) : (s.undoMany n).logs <+: s.logs := by
  refine undoMany_induction (P := fun t => t.logs <+: s.logs) (fun t ht => ?_) n (List.prefix_refl _)
  unfold undoNewest
  split
  · exact ht
  · next c older _ =>
    rcases undo_cases c with ⟨a, rfl⟩ | ⟨i, rfl⟩ | ⟨a, -, -, hundo⟩
    · exact ht
    · exact (List.dropLast_prefix _).trans ht
    · -- A record is put back, and no log is touched.
      obtain ⟨-, hlogs, -⟩ := restore_rest { t with journal := ⟨older⟩ } a c.takeBack
      rw [hundo, hlogs]
      exact ht

/-- A program that can be taken back keeps the logs there were. -/
theorem Extends.logs_initial {b s : Store} (h : b.Extends s) : b.logs <+: s.logs := by
  obtain ⟨n, -, hagree⟩ := h.rewinds
  rw [← hagree.logs]
  exact logs_undoMany_initial s n

/-- The store `s` comes from `b` by a program that can be taken back and stays with one transaction; it has
added logs for this transaction. -/
structure Logging (b s : Store) : Prop where
  extension : b.Extends s
  txIndex_eq : s.txIndex = b.txIndex
  added : ∃ new, LogsAdded b s new

theorem Logging.refl {b : Store} (hb : b.Sound) : b.Logging b :=
  ⟨.refl hb, rfl, [], .of_logs_eq rfl⟩

/-- One operation keeps the invariant. -/
theorem Logging.move {b s t : Store} {op : Operation} (hb : b.Sound) (h : b.Logging s)
    (hmove : Move s op t) (hop : op.IsJournaled b.nextSnapshot) (htx : op.KeepsTx) : b.Logging t := by
  have hextension := h.extension.move hb hmove hop
  obtain ⟨-, hsame, new, hnew⟩ := h
  cases hmove with
  | keep => exact ⟨hextension, hsame, new, hnew⟩
  | write _ =>
    refine ⟨hextension, ?_, new, ?_⟩
    · rw [txIndex_write]
      exact hsame
    · rw [LogsAdded, logs_write]
      exact hnew
  | selectTx i => exact htx.elim
  | addLog log => exact ⟨hextension, hsame, _, hnew.addLog hsame log⟩
  | clearLogs => exact hop.elim
  | snapshot => exact ⟨hextension, hsame, new, hnew⟩
  | revertTo hrevert =>
    obtain ⟨hselected, -⟩ := revertTo_rest hrevert
    refine ⟨hextension, hselected.trans hsame, ?_⟩
    -- What was there before is still there, and what is left of the rest are its first logs.
    obtain ⟨newer, snap, older, -, -, -, rfl⟩ := revertTo_eq_ok.mp hrevert
    exact hnew.of_initial (logs_undoMany_initial { s with snapshots := older } _) hextension.logs_initial
  | commit => exact hop.elim

/-- A program keeps the invariant. -/
theorem Logging.after {b s : Store} {ops : List Operation} (hb : b.Sound) (h : b.Logging s)
    (hops : ∀ op ∈ ops, op.IsJournaled b.nextSnapshot ∧ op.KeepsTx) : b.Logging (s.after ops) := by
  induction ops generalizing s with
  | nil => exact h
  | cons op ops ih =>
    obtain ⟨hjournaled, htx⟩ := hops op List.mem_cons_self
    refine ih (h.move hb (perform_move s op) hjournaled htx) fun op' hop' => ?_
    exact hops op' (List.mem_cons_of_mem _ hop')

end Store

end BridgeMint
