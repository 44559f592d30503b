import BridgeMint.LedgerError
import BridgeMint.Ledger
import BridgeMint.SortedMap

/-!
# Scheduled migrations

A migration changes the ledger once, at a fixed height, as a hard fork does.  The registry lists the
migrations of each height in the order they were added.  It does not remember what has run: running
a height again runs its migrations again.
-/

namespace BridgeMint

/-- A change to the ledger scheduled for a height. -/
structure Migration where
  name : String
  height : UInt64
  /-- What the migration does. -/
  run : Ledger → Ledger

/-- The scheduled migrations, by height. -/
structure MigrationRegistry where
  byHeight : SortedMap UInt64 (List Migration)

namespace MigrationRegistry

def empty : MigrationRegistry := ⟨.empty⟩

instance : Inhabited MigrationRegistry := ⟨empty⟩

/-- The migrations of a height, in the order they run. -/
def scheduledAt (registry : MigrationRegistry) (height : UInt64) : List Migration :=
  (registry.byHeight.get? height).getD []

/-- Schedules a migration after those already scheduled for its height. -/
def append (registry : MigrationRegistry) (migration : Migration) : MigrationRegistry :=
  ⟨registry.byHeight.insert migration.height (registry.scheduledAt migration.height ++ [migration])⟩

/-- The heights that have migrations, ascending. -/
def heights (registry : MigrationRegistry) : List UInt64 :=
  registry.byHeight.keys

/-- All migrations in the order a chain runs them. -/
def toList (registry : MigrationRegistry) : List Migration :=
  registry.byHeight.entries.flatMap (·.2)

def size (registry : MigrationRegistry) : Nat :=
  registry.toList.length

def isEmpty (registry : MigrationRegistry) : Bool :=
  registry.byHeight.isEmpty

/-- Runs the migrations of a height, with a notice before each; `source` tells who asked. -/
def execute (registry : MigrationRegistry) (height : UInt64) (source : String) (ledger : Ledger) :
    Ledger :=
  (registry.scheduledAt height).foldl
    (fun ledger migration => migration.run (ledger.note (.migrating migration.name height source)))
    ledger

/-- The names of the migrations of each height, on one line. -/
def describe (registry : MigrationRegistry) : String :=
  let bucket (entry : UInt64 × List Migration) : String :=
    let names := entry.2.map fun migration => Text.quoted migration.name
    toString entry.1 ++ ": [" ++ String.intercalate ", " names ++ "]"
  "\x7b" ++ String.intercalate ", " (registry.byHeight.entries.map bucket) ++ "\x7d"

end MigrationRegistry

end BridgeMint
