import BridgeMint.Execution.World

/-!
# What steps come to

A step run in a world gives a result and the world after it.  A sequence of steps ends well exactly if
each of them does, in the world that the one before it left; this is how a run of many steps is taken
apart.
-/

namespace BridgeMint

namespace World

variable {σ : Type}

/-- The world with another store. -/
def withStore (w : World σ) (s : Store) : World σ :=
  w.withLedger { w.toLedger with store := s }

@[simp] theorem store_withStore (w : World σ) (s : Store) : (w.withStore s).store = s := rfl

@[simp] theorem store_withLedger (w : World σ) (l : Ledger) : (w.withLedger l).store = l.store := rfl

end World

namespace Step

variable {σ α β : Type} {w w' : World σ}

/-- What a step comes to in a world: its result, and the world after it. -/
def runOn (m : Step σ α) (w : World σ) : Except LedgerError α × World σ :=
  StateT.run (ExceptT.run m) w

theorem runOn_eq_of_fst {m : Step σ α} {result : Except LedgerError α} (h : (runOn m w).1 = result) :
    runOn m w = (result, (runOn m w).2) := by
  rw [← h]

/-! ## Sequences -/

@[simp] theorem runOn_pure (a : α) (w : World σ) : runOn (pure a) w = (.ok a, w) := rfl

theorem pure_ok {a b : α} : runOn (pure a) w = (.ok b, w') ↔ b = a ∧ w' = w := by
  simp [eq_comm]

@[simp] theorem runOn_throw (e : LedgerError) (w : World σ) :
    runOn (throw e : Step σ α) w = (.error e, w) := rfl

/-- If the first step ends well, the second one is run in the world it left. -/
theorem runOn_bind_of_ok {m : Step σ α} {f : α → Step σ β} {a : α} {v : World σ}
    (h : runOn m w = (.ok a, v)) : runOn (m >>= f) w = runOn (f a) v := by
  simp only [runOn] at h ⊢
  rw [ExceptT.run_bind, StateT.run_bind]
  show (StateT.run (ExceptT.run m) w >>= _ : Id _) = _
  rw [h]
  rfl

/-- If the first step is refused, so is the sequence, and the world stays as it was left. -/
theorem runOn_bind_of_error {m : Step σ α} {f : α → Step σ β} {e : LedgerError} {v : World σ}
    (h : runOn m w = (.error e, v)) : runOn (m >>= f) w = (.error e, v) := by
  simp only [runOn] at h ⊢
  rw [ExceptT.run_bind, StateT.run_bind]
  show (StateT.run (ExceptT.run m) w >>= _ : Id _) = _
  rw [h]
  rfl

/-- A sequence ends well exactly if both parts do. -/
theorem bind_ok {m : Step σ α} {f : α → Step σ β} {b : β} :
    runOn (m >>= f) w = (.ok b, w') ↔
      ∃ a v, runOn m w = (.ok a, v) ∧ runOn (f a) v = (.ok b, w') := by
  constructor
  · intro h
    -- A first step that was refused would have refused the sequence.
    cases hm : runOn m w with
    | mk result v =>
      cases result with
      | ok a =>
        rw [runOn_bind_of_ok hm] at h
        exact ⟨a, v, rfl, h⟩
      | error e =>
        rw [runOn_bind_of_error hm] at h
        cases h
  · rintro ⟨a, v, hm, hf⟩
    rw [runOn_bind_of_ok hm, hf]

/-! ## Single steps -/

/-- A computation on the world that cannot be refused. -/
theorem runOn_liftM (m : StateM (World σ) α) (w : World σ) :
    runOn (liftM m : Step σ α) w = (.ok (StateT.run m w).1, (StateT.run m w).2) := rfl

/-- A result that is there already. -/
theorem runOn_liftExcept (result : Except LedgerError α) (w : World σ) :
    runOn (liftM result : Step σ α) w = (result, w) := rfl

@[simp] theorem runOn_store (w : World σ) : runOn store w = (.ok w.store, w) := rfl

@[simp] theorem runOn_note (n : Notice) (w : World σ) :
    runOn (note n) w = (.ok (), w.withLedger (w.toLedger.note n)) := rfl

@[simp] theorem runOn_modify (f : World σ → World σ) (w : World σ) :
    runOn (modify f : Step σ Unit) w = (.ok (), f w) := rfl

@[simp] theorem runOn_change (f : Store → Store) (w : World σ) :
    runOn (change f) w = (.ok (), w.withStore (f w.store)) := rfl

@[simp] theorem runOn_snapshot (w : World σ) :
    runOn snapshot w = (.ok w.store.snapshot.1, w.withStore w.store.snapshot.2) := rfl

theorem attempt_ok {f : Store → Except StoreError Store} :
    runOn (attempt f) w = (.ok (), w') ↔ ∃ s, f w.store = .ok s ∧ w' = w.withStore s := by
  rw [attempt, runOn_bind_of_ok (runOn_store w)]
  cases f w.store with
  | error cause => simp
  | ok s => simp [eq_comm]

/-- Going back ends well exactly if the store can go back, and gives notice of how much it took back. -/
theorem revertTo_ok {id : Nat} :
    runOn (revertTo id) w = (.ok (), w') ↔
      ∃ s, w.store.revertTo id = .ok s ∧ w' = w.withLedger ⟨s, w.notices ++
        [.reverting id (w.store.journal.length - s.journal.length)]⟩ := by
  rw [revertTo, runOn_bind_of_ok (m := get) (a := w) (v := w) rfl, Ledger.revertTo]
  cases w.store.revertTo id with
  | error cause => simp
  | ok s =>
    have hset : ∀ v : World σ, runOn (set v) w = (.ok (), v) := fun _ => rfl
    simp [hset, eq_comm]

/-- Charging succeeds or fails with the meter; the world stays as it is. -/
theorem charge_ok {meter charged : GasMeter} {amount : UInt64} :
    runOn (charge meter amount) w = (.ok charged, w') ↔
      meter.charge amount = .ok charged ∧ w' = w := by
  simp only [charge]
  cases meter.charge amount <;> simp [eq_comm]

/-- Tracing always succeeds and leaves the store alone. -/
theorem exists_runOn_traceStart (start : CallStart) (w : World σ) :
    ∃ v, runOn (traceStart start) w = (.ok (), v) ∧ v.store = w.store := by
  rw [traceStart, runOn_bind_of_ok (m := get) (a := w) (v := w) rfl]
  cases w.trace with
  | none => exact ⟨w, rfl, rfl⟩
  | some trace => exact ⟨_, rfl, rfl⟩

theorem exists_runOn_traceEnd (ending : CallEnd) (w : World σ) :
    ∃ v, runOn (traceEnd ending) w = (.ok (), v) ∧ v.store = w.store := by
  rw [traceEnd, runOn_bind_of_ok (m := get) (a := w) (v := w) rfl]
  cases w.trace with
  | none => exact ⟨w, rfl, rfl⟩
  | some trace => exact ⟨_, rfl, rfl⟩

theorem store_of_traceStart {start : CallStart} (h : runOn (traceStart start) w = (.ok (), w')) :
    w'.store = w.store := by
  obtain ⟨v, hv, hstore⟩ := exists_runOn_traceStart start w
  rw [h] at hv
  cases hv
  exact hstore

theorem store_of_traceEnd {ending : CallEnd} (h : runOn (traceEnd ending) w = (.ok (), w')) :
    w'.store = w.store := by
  obtain ⟨v, hv, hstore⟩ := exists_runOn_traceEnd ending w
  rw [h] at hv
  cases hv
  exact hstore

end Step

end BridgeMint
