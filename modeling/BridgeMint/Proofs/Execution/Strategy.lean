import BridgeMint.Proofs.Execution.Executor
import BridgeMint.Proofs.Store.Renumbering

/-!
# Executors that go by what they read

What an executor does may depend on all it has ever seen.  One that goes by its arguments and by what the
store answers follows a strategy: it issues one operation after another, each chosen by the replies to those
before, until it reports a result.  A strategy that counts snapshots from the first one it could open itself
cannot tell how many were opened before it was asked.
-/

namespace BridgeMint

/-- What an executor does in one call: the result it reports, or an operation and what it does next, which
depends on the reply. -/
inductive Strategy where
  | answer (result : CallResult)
  | step (op : Operation) (next : Reply → Strategy)

namespace Strategy

/-- Carries out a strategy that counts snapshots from `base`. -/
def run (base : Nat) : Strategy → Store → CallResult × Store
  | answer result, s => (result, s)
  | step op next, s =>
    (next ((s.reply (op.raise base)).lower base)).run base (s.perform (op.raise base))

/-- The strategy that issues the operations of a list, whatever the replies are. -/
def ofScript (result : CallResult) : List Operation → Strategy
  | [] => answer result
  | op :: rest => step op fun _ => ofScript result rest

/-- Carrying out a script performs its operations and reports its result. -/
theorem run_ofScript (result : CallResult) (ops : List Operation) (s : Store) :
    (ofScript result ops).run 0 s = (result, s.after ops) := by
  induction ops generalizing s with
  | nil => rfl
  | cons op ops ih => rw [ofScript, run, ih, Operation.raise_zero, Store.after_cons]

/-- The strategy issues no commit. -/
def NeverCommits : Strategy → Prop
  | answer _ => True
  | step op next => op ≠ .commit ∧ ∀ reply, (next reply).NeverCommits

/-- With raised numbers in the store, and counting from a number raised as well, a strategy reports the same
and does the same. -/
theorem run_raise (strategy : Strategy) (base d : Nat) (s : Store) :
    strategy.run (base + d) (s.raise d) =
      ((strategy.run base s).1, (strategy.run base s).2.raise d) := by
  induction strategy generalizing s with
  | answer result => rfl
  | step op next ih =>
    obtain ⟨hreply, hstore⟩ := s.perform_raise d (op.raise base)
    rw [Operation.raise_raise] at hreply hstore
    -- The reply is the same once its number is counted from the raised base.
    rw [run, hreply, hstore, Reply.lower_raise, ih, run]

/-- What a strategy does is a program, and it goes back only to snapshots with numbers from `base` on. -/
theorem exists_after (strategy : Strategy) (base : Nat) (s : Store) :
    ∃ ops, (strategy.run base s).2 = s.after ops ∧
      (strategy.NeverCommits → ∀ op ∈ ops, op.IsJournaled base ∨ op = .clearLogs) := by
  induction strategy generalizing s with
  | answer result => exact ⟨[], rfl, fun _ => nofun⟩
  | step op next ih =>
    obtain ⟨ops, hstore, hops⟩ := ih ((s.reply (op.raise base)).lower base)
      (s.perform (op.raise base))
    refine ⟨op.raise base :: ops, hstore, fun ⟨hcommit, hnever⟩ =>
      List.forall_mem_cons.mpr ⟨?_, hops (hnever _)⟩⟩
    -- Only going back names a number, and a number counted from `base` is none below it.
    cases op with
    | revertTo id => exact .inl (Nat.le_add_left base id)
    | clearLogs => exact .inr rfl
    | commit => exact absurd rfl hcommit
    | _ => exact .inl trivial

end Strategy

namespace Executor

variable {σ : Type}

/-- In every call the executor follows a strategy that is chosen by its arguments, and counts snapshots from
a number that the store determines.  What it remembers, traces and gives notice of is its own affair. -/
def FollowsFrom (executor : Executor σ) (base : Store → Nat)
    (strategy : ExecutionContext → CallRequest → Strategy) : Prop :=
  ∀ context request w, (executor.answer context request w).1 =
      ((strategy context request).run (base w.store) w.store).1 ∧
    (executor.answer context request w).2.store =
      ((strategy context request).run (base w.store) w.store).2

/-- The executor knows snapshots by their order since it was called, and not by their numbers. -/
def Follows (executor : Executor σ) (strategy : ExecutionContext → CallRequest → Strategy) : Prop :=
  executor.FollowsFrom (·.nextSnapshot) strategy

/-- The executor that follows a strategy, remembering nothing. -/
def ofStrategy (strategy : ExecutionContext → CallRequest → Strategy) : Executor σ :=
  fun context request => do
    let w ← get
    let (result, s) := (strategy context request).run w.store.nextSnapshot w.store
    set (w.withLedger { w.toLedger with store := s })
    return result

theorem follows_ofStrategy (strategy : ExecutionContext → CallRequest → Strategy) :
    (ofStrategy strategy : Executor σ).Follows strategy :=
  fun _ _ _ => ⟨rfl, rfl⟩

/-- The strategy of a node without an interpreter. -/
def giveUp : ExecutionContext → CallRequest → Strategy :=
  fun _ _ => .answer (.failed (.reverted none) 0)

theorem follows_null : (null : Executor σ).Follows giveUp :=
  fun _ _ _ => ⟨rfl, rfl⟩

/-- The strategy of an executor of scripts. -/
def play (scripts : List (Address × Script)) : ExecutionContext → CallRequest → Strategy :=
  fun context request =>
    match scripts.find? (·.1 == request.address) with
    | none => giveUp context request
    | some (_, script) => .ofScript script.result script.operations

/-- Scripts read nothing, but they know snapshots by their numbers. -/
theorem followsFrom_scripted (scripts : List (Address × Script)) :
    (scripted scripts).FollowsFrom (fun _ => 0) (play scripts) := by
  intro context request w
  unfold answer scripted play
  cases scripts.find? (·.1 == request.address) with
  | none => exact ⟨rfl, rfl⟩
  | some entry =>
    simp only [Strategy.run_ofScript]
    exact ⟨rfl, Ledger.store_performAll w.toLedger entry.2.operations⟩

/-- An executor that follows a strategy changes the store by operations. -/
theorem Follows.confined {executor : Executor σ}
    {strategy : ExecutionContext → CallRequest → Strategy} (h : executor.Follows strategy) :
    executor.Confined fun _ _ => True := by
  intro context request w _
  obtain ⟨ops, hstore, -⟩ := (strategy context request).exists_after w.store.nextSnapshot w.store
  obtain ⟨-, hfollowed⟩ := h context request w
  exact ⟨ops, fun _ _ => trivial, hfollowed.trans hstore⟩

/-- The executor commits nothing and goes back only to snapshots that it took itself. -/
def KeepsSnapshots (executor : Executor σ) : Prop :=
  executor.Confined fun s op => op.IsJournaled s.nextSnapshot ∨ op = .clearLogs

/-- If its strategies never commit, the snapshots from before the call stay open. -/
theorem Follows.keepsSnapshots {executor : Executor σ}
    {strategy : ExecutionContext → CallRequest → Strategy} (h : executor.Follows strategy)
    (hnever : ∀ context request, (strategy context request).NeverCommits) :
    executor.KeepsSnapshots := by
  intro context request w _
  obtain ⟨ops, hstore, hops⟩ := (strategy context request).exists_after w.store.nextSnapshot w.store
  obtain ⟨-, hfollowed⟩ := h context request w
  exact ⟨ops, hops (hnever context request), hfollowed.trans hstore⟩

end Executor

end BridgeMint
