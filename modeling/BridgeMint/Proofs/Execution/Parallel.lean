import BridgeMint.Proofs.Execution.Step
import BridgeMint.Proofs.Execution.Strategy

/-!
# Steps on stores that differ in the numbers of snapshots

A step that is run on a store with raised numbers runs in parallel to itself: it gives the same result and
leaves the same store, but for the numbers.  Sequences of such steps are such steps, so nothing that is made
of them can tell how many snapshots there have been.
-/

namespace BridgeMint

/-- The error with a number of a snapshot that is `d` higher, if it names one. -/
def LedgerError.raise (e : LedgerError) (d : Nat) : LedgerError :=
  match e with
  | .store cause => .store (cause.raise d)
  | _ => e

/-- The error names no snapshot. -/
def LedgerError.Unnumbered (e : LedgerError) : Prop :=
  ∀ id, e ≠ .store (.unknownSnapshot id)

/-- An error that names no snapshot is not changed. -/
theorem LedgerError.raise_of_unnumbered {e : LedgerError} (h : e.Unnumbered) (d : Nat) :
    e.raise d = e := by
  cases e with
  | store cause =>
    cases cause with
    | unknownSnapshot id => exact absurd rfl (h id)
    | _ => rfl
  | _ => rfl

theorem LedgerError.unnumbered_of_raise {e : LedgerError} {d : Nat} (h : (e.raise d).Unnumbered) :
    e.Unnumbered := by
  rintro id rfl
  exact h (id + d) rfl

/-- A result that names no snapshot is the same from whatever number they are counted. -/
theorem LedgerError.mapError_raise_congr {α : Type} {result : Except LedgerError α} {d : Nat}
    (h : ∀ e, result.mapError (·.raise d) = .error e → e.Unnumbered) (d' : Nat) :
    result.mapError (·.raise d) = result.mapError (·.raise d') := by
  cases result with
  | ok a => rfl
  | error e =>
    have hsame := e.raise_of_unnumbered (unnumbered_of_raise (h _ rfl))
    exact congrArg Except.error ((hsame d).trans (hsame d').symm)

namespace Step

variable {σ α β γ δ : Type} {d : Nat}

/-- On a store whose numbers are `d` higher, `m'` ends as `m` does, with `f` applied to what `m` gives, and
leaves the same store with numbers that are `d` higher.  Nothing is said of traces, notices and memories. -/
def Parallel (d : Nat) (f : α → β) (m : Step σ α) (m' : Step σ β) : Prop :=
  ∀ w w' : World σ, w'.store = w.store.raise d →
    (runOn m' w').1 = ((runOn m w).1.map f).mapError (·.raise d) ∧
      (runOn m' w').2.store = (runOn m w).2.store.raise d

/-! ## Sequences -/

/-- Sequences of steps in parallel run in parallel. -/
theorem Parallel.bind {f : α → β} {g : γ → δ} {m : Step σ α} {m' : Step σ β} {k : α → Step σ γ}
    {k' : β → Step σ δ} (hm : Parallel d f m m') (hk : ∀ a, Parallel d g (k a) (k' (f a))) :
    Parallel d g (m >>= k) (m' >>= k') := by
  intro w w' hw
  obtain ⟨hresult, hstore⟩ := hm w w' hw
  generalize hrun' : runOn m' w' = run' at hresult hstore
  generalize hrun : runOn m w = run at hresult hstore
  obtain ⟨result', v'⟩ := run'
  obtain ⟨result, v⟩ := run
  cases result with
  | ok a =>
    obtain rfl : result' = .ok (f a) := hresult
    -- Both go on from stores that again differ in the numbers only.
    rw [runOn_bind_of_ok hrun, runOn_bind_of_ok hrun']
    exact hk a v v' hstore
  | error e =>
    -- Both stop at the same place, with the same error but for its number.
    obtain rfl : result' = .error (e.raise d) := hresult
    rw [runOn_bind_of_error hrun, runOn_bind_of_error hrun']
    exact ⟨rfl, hstore⟩

theorem parallel_pure (f : α → β) (a : α) : Parallel d f (pure a : Step σ α) (pure (f a)) :=
  fun _ _ hw => ⟨rfl, hw⟩

theorem parallel_throw (f : α → β) {e : LedgerError} (he : e.Unnumbered) :
    Parallel d f (throw e : Step σ α) (throw e) :=
  fun _ _ hw => ⟨congrArg Except.error (e.raise_of_unnumbered he d).symm, hw⟩

/-! ## Single steps -/

theorem parallel_store : Parallel d (·.raise d) (store : Step σ Store) store :=
  fun _ _ hw => ⟨congrArg Except.ok hw, hw⟩

theorem parallel_note (n n' : Notice) : Parallel d id (note n : Step σ Unit) (note n') :=
  fun _ _ hw => ⟨rfl, hw⟩

/-- A change that does not look at the numbers runs in parallel to itself. -/
theorem parallel_change {g : Store → Store} (hg : ∀ s, g (s.raise d) = (g s).raise d) :
    Parallel d id (change g : Step σ Unit) (change g) := by
  intro w w' hw
  rw [runOn_change, runOn_change, hw]
  exact ⟨rfl, hg w.store⟩

/-- So does one that may be refused. -/
theorem parallel_attempt {g : Store → Except StoreError Store}
    (hg : ∀ s, g (s.raise d) = Store.raiseResult (g s) d) :
    Parallel d id (attempt g : Step σ Unit) (attempt g) := by
  intro w w' hw
  unfold attempt
  rw [runOn_bind_of_ok (runOn_store w), runOn_bind_of_ok (runOn_store w'), hw, hg]
  cases g w.store with
  | error cause => exact ⟨rfl, hw⟩
  | ok s => exact ⟨rfl, rfl⟩

theorem parallel_addBalance (a : Address) (amount : UInt256) :
    Parallel d id (attempt (·.addBalance a amount) : Step σ Unit) (attempt (·.addBalance a amount)) :=
  parallel_attempt fun s => s.addBalance_raise d a amount

theorem parallel_subBalance (a : Address) (amount : UInt256) :
    Parallel d id (attempt (·.subBalance a amount) : Step σ Unit) (attempt (·.subBalance a amount)) :=
  parallel_attempt fun s => s.subBalance_raise d a amount

theorem parallel_setNonce (a : Address) (n : UInt64) :
    Parallel d id (change (·.setNonce a n) : Step σ Unit) (change (·.setNonce a n)) :=
  parallel_change fun s => s.write_raise d a (.nonce n)

theorem parallel_setWord (a : Address) (key value : Word) :
    Parallel d id (change (·.setWord a key value) : Step σ Unit) (change (·.setWord a key value)) :=
  parallel_change fun s => s.write_raise d a (.word key value)

/-- The number of a new snapshot is raised like all others. -/
theorem parallel_snapshot : Parallel d (· + d) (snapshot : Step σ Nat) snapshot := by
  intro w w' hw
  rw [runOn_snapshot, runOn_snapshot, hw]
  obtain ⟨-, hopened⟩ := w.store.perform_raise d .snapshot
  exact ⟨rfl, hopened⟩

/-- Going back to a raised number comes to the same, with a notice that may name another number. -/
theorem parallel_revertTo (id' : Nat) :
    Parallel d id (revertTo id' : Step σ Unit) (revertTo (id' + d)) := by
  intro w w' hw
  unfold revertTo
  rw [runOn_bind_of_ok (m := get) (a := w) (v := w) rfl,
    runOn_bind_of_ok (m := get) (a := w') (v := w') rfl]
  simp only [Ledger.revertTo, hw, Store.revertTo_raise]
  cases w.store.revertTo id' with
  | error cause => exact ⟨rfl, hw⟩
  | ok s => exact ⟨rfl, rfl⟩

/-- Tracing does not touch the store. -/
theorem parallel_traceStart (start start' : CallStart) :
    Parallel d id (traceStart start : Step σ Unit) (traceStart start') := by
  intro w w' hw
  obtain ⟨v, hrun, hstore⟩ := exists_runOn_traceStart start w
  obtain ⟨v', hrun', hstore'⟩ := exists_runOn_traceStart start' w'
  rw [hrun, hrun']
  refine ⟨rfl, ?_⟩
  rw [hstore', hw, hstore]

theorem parallel_traceEnd (ending ending' : CallEnd) :
    Parallel d id (traceEnd ending : Step σ Unit) (traceEnd ending') := by
  intro w w' hw
  obtain ⟨v, hrun, hstore⟩ := exists_runOn_traceEnd ending w
  obtain ⟨v', hrun', hstore'⟩ := exists_runOn_traceEnd ending' w'
  rw [hrun, hrun']
  refine ⟨rfl, ?_⟩
  rw [hstore', hw, hstore]

theorem parallel_charge (meter : GasMeter) (amount : UInt64) :
    Parallel d id (charge meter amount : Step σ GasMeter) (charge meter amount) := by
  unfold charge
  cases meter.charge amount with
  | error cause => exact parallel_throw id nofun
  | ok charged => exact parallel_pure id charged

/-- An executor that counts snapshots from the first one it could open cannot tell the stores apart. -/
theorem parallel_executor {executor : Executor σ}
    {strategy : ExecutionContext → CallRequest → Strategy} (h : executor.Follows strategy)
    (context : ExecutionContext) (request : CallRequest) :
    Parallel d id (liftM (executor context request) : Step σ CallResult)
      (liftM (executor context request)) := by
  intro w w' hw
  obtain ⟨hresult, hstore⟩ := h context request w
  obtain ⟨hresult', hstore'⟩ := h context request w'
  have hraised := (strategy context request).run_raise w.store.nextSnapshot d w.store
  simp only [hw] at hresult' hstore'
  -- On the raised store it counts from the raised number, which is what `run_raise` is about.
  rw [show (w.store.raise d).nextSnapshot = w.store.nextSnapshot + d from rfl, hraised] at hresult' hstore'
  rw [runOn_liftM, runOn_liftM]
  exact ⟨congrArg Except.ok (hresult'.trans hresult.symm),
    hstore'.trans (congrArg (·.raise d) hstore.symm)⟩

end Step

end BridgeMint
