import BridgeMint.Proofs.Execution.Step

/-!
# What steps are refused for

A sequence of steps is refused by the first of its steps that is refused, so what holds of the errors of
every step holds of the errors of the sequence.
-/

namespace BridgeMint

namespace Step

variable {σ α β : Type} {P : LedgerError → Prop} {w : World σ}

/-- If the step is refused, it is for an error with the property. -/
def RefusedFor (P : LedgerError → Prop) (m : Step σ α) (w : World σ) : Prop :=
  ∀ e, (runOn m w).1 = .error e → P e

/-! ## Sequences -/

theorem RefusedFor.of_ok {m : Step σ α} {a : α} {v : World σ} (h : runOn m w = (.ok a, v)) :
    RefusedFor P m w := by
  intro e he
  rw [h] at he
  cases he

theorem RefusedFor.of_error {m : Step σ α} {e : LedgerError} {v : World σ}
    (h : runOn m w = (.error e, v)) (he : P e) : RefusedFor P m w := by
  intro e' he'
  rw [h] at he'
  cases he'
  exact he

/-- A sequence is refused for an error with the property if each of its parts is. -/
theorem RefusedFor.bind {m : Step σ α} {f : α → Step σ β} (hm : RefusedFor P m w)
    (hf : ∀ a v, runOn m w = (.ok a, v) → RefusedFor P (f a) v) : RefusedFor P (m >>= f) w := by
  intro e he
  cases hrun : runOn m w with
  | mk result v =>
    cases result with
    | ok a =>
      rw [runOn_bind_of_ok hrun] at he
      exact hf a v hrun e he
    | error e' =>
      rw [runOn_bind_of_error hrun] at he
      -- The first part is refused, and the second one is not run.
      obtain rfl : e' = e := Except.error.inj he
      exact hm e' (congrArg Prod.fst hrun)

theorem RefusedFor.bind_of_ok {m : Step σ α} {f : α → Step σ β} {a : α} {v : World σ}
    (h : runOn m w = (.ok a, v)) (hf : RefusedFor P (f a) v) : RefusedFor P (m >>= f) w := by
  intro e he
  rw [runOn_bind_of_ok h] at he
  exact hf e he

/-! ## Single steps -/

theorem refusedFor_attempt {f : Store → Except StoreError Store}
    (h : ∀ cause, f w.store = .error cause → P (.store cause)) : RefusedFor P (attempt f) w := by
  refine RefusedFor.bind_of_ok (runOn_store w) ?_
  cases hresult : f w.store with
  | error cause => exact .of_error (runOn_throw _ w) (h cause hresult)
  | ok s => exact .of_ok (runOn_change _ w)

/-- A charge is refused for what the meter refuses. -/
theorem refusedFor_charge {meter : GasMeter} {amount : UInt64}
    (h : ∀ cause, meter.charge amount = .error cause → P (.call cause)) :
    RefusedFor P (charge meter amount) w := by
  unfold charge
  cases hresult : meter.charge amount with
  | error cause => exact .of_error (runOn_throw _ w) (h cause hresult)
  | ok charged => exact .of_ok (runOn_pure charged w)

/-- Going back is refused for what the store refuses. -/
theorem refusedFor_revertTo {id : Nat}
    (h : ∀ cause, w.store.revertTo id = .error cause → P (.store cause)) :
    RefusedFor P (revertTo id) w := by
  refine RefusedFor.bind_of_ok (m := get) (a := w) (v := w) rfl ?_
  simp only [Ledger.revertTo]
  cases hresult : w.store.revertTo id with
  | error cause => exact .of_error (runOn_throw _ w) (h cause hresult)
  | ok s => exact .of_ok rfl

/-- Tracing is never refused. -/
theorem refusedFor_traceStart (start : CallStart) : RefusedFor P (traceStart start) w := by
  obtain ⟨v, hrun, -⟩ := exists_runOn_traceStart start w
  exact .of_ok hrun

theorem refusedFor_traceEnd (ending : CallEnd) : RefusedFor P (traceEnd ending) w := by
  obtain ⟨v, hrun, -⟩ := exists_runOn_traceEnd ending w
  exact .of_ok hrun

end Step

end BridgeMint
