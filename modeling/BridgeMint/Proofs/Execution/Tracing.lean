import BridgeMint.Proofs.CallTrace.Stack
import BridgeMint.Proofs.Execution.Executor
import BridgeMint.Proofs.Execution.Step

/-!
# Steps that traces make no difference to

Worlds with the same store and the same memory differ in their traces and notices only.  A step is inert if
it cannot tell such worlds apart: it gives the same result in both and leaves such worlds again.  Sequences
of inert steps are inert.  All steps are but those that record a call, and these do nothing else.
-/

namespace BridgeMint

namespace World

variable {σ : Type}

/-- The world with another trace, or without one. -/
def withTrace (w : World σ) (trace : Option CallTrace) : World σ :=
  { w with trace }

@[simp] theorem trace_withStore (w : World σ) (s : Store) : (w.withStore s).trace = w.trace := rfl

@[simp] theorem trace_withLedger (w : World σ) (l : Ledger) : (w.withLedger l).trace = w.trace := rfl

/-- Worlds that differ in their traces and notices only. -/
structure Alike (w w' : World σ) : Prop where
  store_eq : w.store = w'.store
  memory_eq : w.memory = w'.memory

theorem Alike.symm {w w' : World σ} (h : w.Alike w') : w'.Alike w :=
  ⟨h.store_eq.symm, h.memory_eq.symm⟩

theorem Alike.trans {w w' w'' : World σ} (h : w.Alike w') (h' : w'.Alike w'') : w.Alike w'' :=
  ⟨h.store_eq.trans h'.store_eq, h.memory_eq.trans h'.memory_eq⟩

/-- A world is like itself with another trace. -/
theorem alike_withTrace (w : World σ) (trace trace' : Option CallTrace) :
    (w.withTrace trace).Alike (w.withTrace trace') :=
  ⟨rfl, rfl⟩

end World

/-! ## Executors -/

namespace Executor

variable {σ : Type}

/-- The executor leaves the trace alone, and neither it nor the notices make a difference to what it
does.  Notices are for whoever reads the log; no executor sees them. -/
def IgnoresTrace (executor : Executor σ) : Prop :=
  ∀ context request w, (executor.answer context request w).2.trace = w.trace ∧
    ∀ w', w.Alike w' →
      (executor.answer context request w).1 = (executor.answer context request w').1 ∧
        (executor.answer context request w).2.Alike (executor.answer context request w').2

theorem ignoresTrace_null : (null : Executor σ).IgnoresTrace :=
  fun _ _ _ => ⟨rfl, fun _ halike => ⟨rfl, halike.store_eq, halike.memory_eq⟩⟩

end Executor

/-- Replies to operations depend on the store alone. -/
theorem Ledger.replies_performAll {l l' : Ledger} (h : l.store = l'.store) (ops : List Operation) :
    (l.performAll ops).1 = (l'.performAll ops).1 := by
  induction ops generalizing l l' with
  | nil => rfl
  | cons op ops ih =>
    obtain ⟨hreply, hstore⟩ := l.perform_eq op
    obtain ⟨hreply', hstore'⟩ := l'.perform_eq op
    have hnext : (l.perform op).2.store = (l'.perform op).2.store := by rw [hstore, hstore', h]
    simp only [performAll, ih hnext, hreply, hreply', h]

/-- Scripts ignore the trace: they perform their operations and remember the replies. -/
theorem Executor.ignoresTrace_scripted (scripts : List (Address × Script)) :
    (scripted scripts).IgnoresTrace := by
  intro context request w
  unfold answer scripted
  cases scripts.find? (·.1 == request.address) with
  | none =>
    refine ⟨rfl, fun w' halike => ⟨rfl, halike.store_eq, ?_⟩⟩
    exact congrArg (· ++ [ScriptedCall.mk request context.block.number none]) halike.memory_eq
  | some entry =>
    refine ⟨rfl, fun w' halike => ⟨rfl, ?_, ?_⟩⟩
    · exact (Ledger.store_performAll _ _).trans
        ((congrArg (·.after entry.2.operations) halike.store_eq).trans
          (Ledger.store_performAll _ _).symm)
    · -- The replies depend on the store alone, so both memories grow by the same call.
      have hreplies := Ledger.replies_performAll halike.store_eq entry.2.operations
      show w.memory ++ [ScriptedCall.mk request context.block.number (some _)] = w'.memory ++ _
      rw [halike.memory_eq, hreplies]

namespace Step

variable {σ α β : Type} {w w' : World σ}

/-- In worlds that are alike the step gives the same result and leaves worlds that are alike. -/
def Inert (m : Step σ α) : Prop :=
  ∀ w w' : World σ, w.Alike w' →
    (runOn m w).1 = (runOn m w').1 ∧ (runOn m w).2.Alike (runOn m w').2

/-- The step is inert and leaves the trace as it is, whether it is refused or not. -/
structure Untraced (m : Step σ α) : Prop where
  inert : Inert m
  trace_eq : ∀ w, (runOn m w).2.trace = w.trace

theorem Untraced.trace_of_run {m : Step σ α} {result : Except LedgerError α} (h : Untraced m)
    (hrun : runOn m w = (result, w')) : w'.trace = w.trace := by
  have htrace := h.trace_eq w
  rwa [hrun] at htrace

/-! ## Sequences -/

/-- Sequences of inert steps are inert. -/
theorem Inert.bind {m : Step σ α} {f : α → Step σ β} (hm : Inert m) (hf : ∀ a, Inert (f a)) :
    Inert (m >>= f) := by
  intro w w' halike
  obtain ⟨hresult, halike'⟩ := hm w w' halike
  generalize hrun : runOn m w = run at hresult halike'
  generalize hrun' : runOn m w' = run' at hresult halike'
  obtain ⟨result, v⟩ := run
  obtain ⟨result', v'⟩ := run'
  -- Both runs end the same way, so they go on or stop together.
  obtain rfl : result = result' := hresult
  cases result with
  | ok a =>
    rw [runOn_bind_of_ok hrun, runOn_bind_of_ok hrun']
    exact hf a v v' halike'
  | error e =>
    rw [runOn_bind_of_error hrun, runOn_bind_of_error hrun']
    exact ⟨rfl, halike'⟩

/-- Sequences of untraced steps are untraced. -/
theorem Untraced.bind {m : Step σ α} {f : α → Step σ β} (hm : Untraced m)
    (hf : ∀ a, Untraced (f a)) : Untraced (m >>= f) := by
  refine ⟨hm.inert.bind fun a => (hf a).inert, fun w => ?_⟩
  cases hrun : runOn m w with
  | mk result v =>
    have htrace := hm.trace_of_run hrun
    cases result with
    | ok a =>
      rw [runOn_bind_of_ok hrun, (hf a).trace_eq, htrace]
    | error e =>
      rw [runOn_bind_of_error hrun, htrace]

/-! ## Single steps -/

/-- A step is untraced if a function of the store says what it comes to. -/
theorem Untraced.of_store {m : Step σ α} (f : Store → Except LedgerError α × Store)
    (h : ∀ w, (runOn m w).1 = (f w.store).1 ∧ (runOn m w).2.store = (f w.store).2 ∧
      (runOn m w).2.memory = w.memory ∧ (runOn m w).2.trace = w.trace) : Untraced m := by
  refine ⟨fun w w' halike => ?_, fun w => ?_⟩
  · obtain ⟨hresult, hstore, hmemory, -⟩ := h w
    obtain ⟨hresult', hstore', hmemory', -⟩ := h w'
    rw [hresult, hresult', halike.store_eq]
    refine ⟨rfl, ?_, ?_⟩
    · rw [hstore, hstore', halike.store_eq]
    · rw [hmemory, hmemory', halike.memory_eq]
  · obtain ⟨-, -, -, htrace⟩ := h w
    exact htrace

theorem untraced_pure (a : α) : Untraced (pure a : Step σ α) :=
  .of_store (fun s => (.ok a, s)) fun _ => ⟨rfl, rfl, rfl, rfl⟩

theorem untraced_throw (e : LedgerError) : Untraced (throw e : Step σ α) :=
  .of_store (fun s => (.error e, s)) fun _ => ⟨rfl, rfl, rfl, rfl⟩

theorem untraced_liftExcept (result : Except LedgerError α) :
    Untraced (liftM result : Step σ α) :=
  .of_store (fun s => (result, s)) fun _ => ⟨rfl, rfl, rfl, rfl⟩

theorem untraced_store : Untraced (store : Step σ Store) :=
  .of_store (fun s => (.ok s, s)) fun _ => ⟨rfl, rfl, rfl, rfl⟩

theorem untraced_note (n : Notice) : Untraced (note n : Step σ Unit) :=
  .of_store (fun s => (.ok (), s)) fun _ => ⟨rfl, rfl, rfl, rfl⟩

theorem untraced_change (f : Store → Store) : Untraced (change f : Step σ Unit) :=
  .of_store (fun s => (.ok (), f s)) fun _ => ⟨rfl, rfl, rfl, rfl⟩

theorem untraced_attempt (f : Store → Except StoreError Store) :
    Untraced (attempt f : Step σ Unit) := by
  unfold attempt
  refine untraced_store.bind fun s => ?_
  cases f s with
  | error cause => exact untraced_throw _
  | ok t => exact untraced_change _

theorem untraced_snapshot : Untraced (snapshot : Step σ Nat) :=
  .of_store (fun s => (.ok s.snapshot.1, s.snapshot.2)) fun _ => ⟨rfl, rfl, rfl, rfl⟩

theorem untraced_revertTo (id : Nat) : Untraced (revertTo id : Step σ Unit) := by
  refine .of_store (fun s => (((s.revertTo id).map fun _ => ()).mapError .store,
    (s.revertTo id).toOption.getD s)) fun w => ?_
  -- A refusal leaves the store as it is, and either way the store says which it is.
  unfold revertTo
  rw [runOn_bind_of_ok (m := get) (a := w) (v := w) rfl, Ledger.revertTo]
  cases w.store.revertTo id <;> exact ⟨rfl, rfl, rfl, rfl⟩

theorem untraced_charge (meter : GasMeter) (amount : UInt64) :
    Untraced (charge meter amount : Step σ GasMeter) := by
  unfold charge
  cases meter.charge amount with
  | error cause => exact untraced_throw _
  | ok charged => exact untraced_pure _

/-- An executor that ignores the trace is an untraced step. -/
theorem untraced_executor {executor : Executor σ} (h : executor.IgnoresTrace)
    (context : ExecutionContext) (request : CallRequest) :
    Untraced (liftM (executor context request) : Step σ CallResult) := by
  refine ⟨fun w w' halike => ?_, fun w => ?_⟩
  · obtain ⟨-, hsame⟩ := h context request w
    obtain ⟨hresult, halike'⟩ := hsame w' halike
    exact ⟨congrArg Except.ok hresult, halike'⟩
  · obtain ⟨hkept, -⟩ := h context request w
    exact hkept

/-! ## Steps on the trace -/

/-- Recording the start of a call always succeeds and changes nothing but the trace and the notices. -/
theorem traceStart_records (start : CallStart) (w : World σ) :
    (runOn (traceStart start) w).1 = .ok () ∧ w.Alike (runOn (traceStart start) w).2 ∧
      (runOn (traceStart start) w).2.trace = w.trace.map (·.start start) := by
  rw [traceStart, runOn_bind_of_ok (m := get) (a := w) (v := w) rfl]
  cases htrace : w.trace with
  | none => exact ⟨rfl, ⟨rfl, rfl⟩, htrace⟩
  | some trace => exact ⟨rfl, ⟨rfl, rfl⟩, rfl⟩

/-- Recording the end of a call always succeeds and changes nothing else, either. -/
theorem traceEnd_records (ending : CallEnd) (w : World σ) :
    (runOn (traceEnd ending) w).1 = .ok () ∧ w.Alike (runOn (traceEnd ending) w).2 ∧
      (runOn (traceEnd ending) w).2.trace = w.trace.map (·.finish ending) := by
  rw [traceEnd, runOn_bind_of_ok (m := get) (a := w) (v := w) rfl]
  cases htrace : w.trace with
  | none => exact ⟨rfl, ⟨rfl, rfl⟩, htrace⟩
  | some trace => exact ⟨rfl, ⟨rfl, rfl⟩, rfl⟩

/-- A step with a fixed result that leaves a world like the one before is inert. -/
theorem Inert.of_alike {m : Step σ α} (result : Except LedgerError α)
    (h : ∀ w, (runOn m w).1 = result ∧ w.Alike (runOn m w).2) : Inert m := by
  intro w w' halike
  obtain ⟨hresult, hafter⟩ := h w
  obtain ⟨hresult', hafter'⟩ := h w'
  exact ⟨hresult.trans hresult'.symm, hafter.symm.trans (halike.trans hafter')⟩

theorem inert_traceStart (start : CallStart) : Inert (traceStart start : Step σ Unit) := by
  refine .of_alike (.ok ()) fun w => ?_
  obtain ⟨hresult, halike, -⟩ := traceStart_records start w
  exact ⟨hresult, halike⟩

theorem inert_traceEnd (ending : CallEnd) : Inert (traceEnd ending : Step σ Unit) := by
  refine .of_alike (.ok ()) fun w => ?_
  obtain ⟨hresult, halike, -⟩ := traceEnd_records ending w
  exact ⟨hresult, halike⟩

theorem trace_of_traceStart {start : CallStart} (h : runOn (traceStart start) w = (.ok (), w')) :
    w'.trace = w.trace.map (·.start start) := by
  obtain ⟨-, -, htrace⟩ := traceStart_records start w
  rwa [h] at htrace

theorem trace_of_traceEnd {ending : CallEnd} (h : runOn (traceEnd ending) w = (.ok (), w')) :
    w'.trace = w.trace.map (·.finish ending) := by
  obtain ⟨-, -, htrace⟩ := traceEnd_records ending w
  rwa [h] at htrace

end Step

end BridgeMint
