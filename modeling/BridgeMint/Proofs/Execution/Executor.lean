import BridgeMint.Execution.Executor
import BridgeMint.Proofs.Store.Supply

/-!
# What is asked of executors

An executor can see everything, but it can change the store only by its operations.  What it is trusted
with is said by the operations that it may use, whatever it is asked and whatever it remembers.
-/

namespace BridgeMint

namespace Executor

variable {σ : Type}

/-- What an executor reports, and the world it leaves. -/
def answer (executor : Executor σ) (context : ExecutionContext) (request : CallRequest) (w : World σ) :
    CallResult × World σ :=
  StateT.run (executor context request) w

/-- Whatever the executor is asked, it changes the store by a program of allowed operations. -/
def Confined (executor : Executor σ) (Allowed : Store → Operation → Prop) : Prop :=
  ∀ context request w, w.store.Reachable → ∃ ops : List Operation,
    (∀ op ∈ ops, Allowed w.store op) ∧ (executor.answer context request w).2.store = w.store.after ops

/-- The executor uses only operations that the journal can take back, and goes back only to snapshots
that it took itself. -/
def Journaled (executor : Executor σ) : Prop :=
  executor.Confined fun s op => op.IsJournaled s.nextSnapshot

/-- Calls that succeed keep the sum of all balances and what is left to mint. -/
def Conserves (executor : Executor σ) : Prop :=
  ∀ context request w, w.store.Reachable →
    (executor.answer context request w).1.succeeded = true →
    (executor.answer context request w).2.store.totalBalance = w.store.totalBalance ∧
      (executor.answer context request w).2.store.word MintContract.address MintContract.limitSlot =
        w.store.word MintContract.address MintContract.limitSlot

/-- Calls that succeed do not increase the sum of all balances. -/
def CreatesNothing (executor : Executor σ) : Prop :=
  ∀ context request w, w.store.Reachable →
    (executor.answer context request w).1.succeeded = true →
    (executor.answer context request w).2.store.totalBalance ≤ w.store.totalBalance

/-! ## The executors there are -/

/-- The executor that runs nothing uses no operations. -/
theorem confined_null (Allowed : Store → Operation → Prop) :
    (null : Executor σ).Confined Allowed := by
  intro context request w _
  exact ⟨[], fun _ h => (List.not_mem_nil h).elim, rfl⟩

/-- It never succeeds either, so it creates nothing. -/
theorem createsNothing_null : (null : Executor σ).CreatesNothing := by
  intro context request w _ h
  cases h

/-- Scripts do what their operations do. -/
theorem answer_scripted (scripts : List (Address × Script)) (context : ExecutionContext)
    (request : CallRequest) (w : World (List ScriptedCall)) :
    (((scripted scripts).answer context request w).1.succeeded = false ∧
        ((scripted scripts).answer context request w).2.store = w.store) ∨
      ∃ entry ∈ scripts,
        ((scripted scripts).answer context request w).1 = entry.2.result ∧
        ((scripted scripts).answer context request w).2.store =
          w.store.after entry.2.operations := by
  unfold answer scripted
  -- An address without a script fails and does nothing.
  cases hfind : scripts.find? (·.1 == request.address) with
  | none =>
    left
    exact ⟨rfl, rfl⟩
  | some entry =>
    right
    refine ⟨entry, List.mem_of_find?_eq_some hfind, rfl, ?_⟩
    exact Ledger.store_performAll w.toLedger entry.2.operations

/-- Scripts of allowed operations are confined to them. -/
theorem confined_scripted {Allowed : Store → Operation → Prop} {scripts : List (Address × Script)}
    (h : ∀ entry ∈ scripts, ∀ op ∈ entry.2.operations, ∀ s, Allowed s op) :
    (scripted scripts).Confined Allowed := by
  intro context request w _
  rcases answer_scripted scripts context request w with ⟨-, hstore⟩ | ⟨entry, hentry, -, hstore⟩
  · exact ⟨[], fun _ hop => (List.not_mem_nil hop).elim, hstore⟩
  · exact ⟨entry.2.operations, fun op hop => h entry hentry op hop _, hstore⟩

end Executor

end BridgeMint
