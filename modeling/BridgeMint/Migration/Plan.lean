import BridgeMint.Data.Datum
import BridgeMint.Migration.MintFork
import BridgeMint.Store.Root

/-!
# Plans of migrations

The migrations a chain will run, in order, and what they make of a chain that starts empty.  A trial
run goes through the heights of the plan; all migrations of one height share the root found after
them.
-/

namespace BridgeMint

/-- A migration in a plan. -/
structure PlannedMigration where
  height : UInt64
  name : String
  /-- The state root after the migrations up to this height, once it is known. -/
  root : Option Word
  deriving DecidableEq

namespace PlannedMigration

/-- A planned migration as data; an unknown root is left out. -/
def toDatum (entry : PlannedMigration) : Datum :=
  .table ([("height", .ofUInt64 entry.height), ("name", .text entry.name)] ++
    (entry.root.map fun root => ("state_root", .text root.text)).toList) true

/-- Notes the root found at a height. -/
def withRoot (height : UInt64) (root : Word) (entry : PlannedMigration) : PlannedMigration :=
  if entry.height = height then { entry with root := some root } else entry

end PlannedMigration

namespace MigrationRegistry

/-- The plan of a registry: heights ascending, and within a height in the order they run. -/
def plan (registry : MigrationRegistry) : List PlannedMigration :=
  registry.heights.flatMap fun height =>
    (registry.scheduledAt height).map fun migration => ⟨height, migration.name, none⟩

/-- The source of notices given by a trial run. -/
def trialSource : String := "simulate"

/-- Runs the migrations of one height and commits them. -/
def tryHeight (registry : MigrationRegistry) (height : UInt64) (ledger : Ledger) : Ledger :=
  (registry.execute height trialSource ledger).change (·.commit)

/-- Goes through heights with a ledger and notes the roots in a plan. -/
def tryHeights (registry : MigrationRegistry) : List UInt64 → Ledger → List PlannedMigration →
    List PlannedMigration × Ledger
  | [], ledger, entries => (entries, ledger)
  | height :: rest, ledger, entries =>
    let ledger := registry.tryHeight height ledger
    tryHeights registry rest ledger (entries.map (·.withRoot height ledger.store.root))

/-- Runs all migrations on an empty chain and notes the roots in a plan. -/
def trial (registry : MigrationRegistry) (entries : List PlannedMigration) :
    List PlannedMigration × Ledger :=
  registry.tryHeights registry.heights (.ofStore .empty) entries

end MigrationRegistry

/-! ## Plans as text -/

namespace PlannedMigration

/-- A text filled up with blanks on its left. -/
def alignRight (width : Nat) (s : String) : String :=
  String.ofList (List.replicate (width - s.length) ' ') ++ s

/-- The width of the column of heights. -/
def heightWidth : Nat := 10

def line (entry : PlannedMigration) : String :=
  alignRight heightWidth (toString entry.height) ++ "  " ++ entry.name ++
    match entry.root with
    | none => "\n"
    | some root => s!" (root {root})\n"

/-- A plan as a table of lines. -/
def schedule (entries : List PlannedMigration) : String :=
  if entries.isEmpty then "No state migrations scheduled\n"
  else
    alignRight heightWidth "height" ++ "  migration\n" ++ String.join (entries.map line)

def listToDatum (entries : List PlannedMigration) : Datum :=
  .list (entries.map toDatum) true

end PlannedMigration

end BridgeMint
