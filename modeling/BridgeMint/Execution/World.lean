import BridgeMint.CallTrace
import BridgeMint.Execution.Context
import BridgeMint.Ledger
import BridgeMint.LedgerError

/-!
# Steps of execution

What changes while a message runs: the ledger, the trace of calls if one is kept, and whatever the
executor of contract code remembers for itself.  A step is a computation on these that may be
refused.  A refusal does not take anything back: what was changed before it stays changed.
-/

namespace BridgeMint

/-- Everything that changes while messages run. -/
structure World (σ : Type) extends Ledger where
  /-- The trace of calls, if one is kept. -/
  trace : Option CallTrace
  /-- What the executor of contract code remembers. -/
  memory : σ

namespace World

/-- A world around a store, with nothing noted and no trace. -/
def ofStore {σ : Type} (store : Store) (memory : σ) : World σ :=
  { toLedger := .ofStore store, trace := none, memory }

def withLedger {σ : Type} (world : World σ) (ledger : Ledger) : World σ :=
  { world with toLedger := ledger }

end World

abbrev Step (σ : Type) (α : Type) := ExceptT LedgerError (StateM (World σ)) α

namespace Step

variable {σ : Type}

/-! ## Steps on the ledger -/

def store : Step σ Store := do
  return (← get).store

def note (notice : Notice) : Step σ Unit :=
  modify fun w => w.withLedger (w.toLedger.note notice)

def change (f : Store → Store) : Step σ Unit :=
  modify fun w => w.withLedger (w.toLedger.change f)

/-- Changes the store unless it refuses. -/
def attempt (f : Store → Except StoreError Store) : Step σ Unit := do
  match f (← store) with
  | .error cause => throw (.store cause)
  | .ok store => change fun _ => store

def snapshot : Step σ Nat := do
  let (id, store) := (← store).snapshot
  change fun _ => store
  return id

/-- Takes the store back to a snapshot. -/
def revertTo (id : Nat) : Step σ Unit := do
  let w ← get
  match w.toLedger.revertTo id with
  | .error cause => throw (.store cause)
  | .ok ledger => set (w.withLedger ledger)

/-! ## Steps on the trace -/

/-- Records the start of a call, if a trace is kept. -/
def traceStart (start : CallStart) : Step σ Unit := do
  match (← get).trace with
  | none => return
  | some trace =>
    note (.callStart start.sender start.recipient start.gas start.input.length)
    modify fun w => { w with trace := some (trace.start start) }

/-- Records the end of a call, if a trace is kept. -/
def traceEnd (ending : CallEnd) : Step σ Unit := do
  match (← get).trace with
  | none => return
  | some trace =>
    note (.callEnd ending.gasUsed ending.failure.isSome)
    modify fun w => { w with trace := some (trace.finish ending) }

/-! ## Gas -/

/-- Uses gas that must be there. -/
def charge (meter : GasMeter) (amount : UInt64) : Step σ GasMeter :=
  match meter.charge amount with
  | .error cause => throw (.call cause)
  | .ok meter => return meter

end Step

end BridgeMint
