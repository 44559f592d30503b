import BridgeMint.Data.Datum

/-!
# The tables of a TOML document

A document builds up tables piece by piece: lines set values, and headers open tables and rows of
tables, naming tables on the way that need not be there yet.  A value is set only once, and a table is
opened by a header only once; a table that came about on the way to another may still be opened, and
one that came about by a dotted name may still get further values by dotted names.
-/

namespace BridgeMint

namespace Toml

/-- A dotted name. -/
structure Name where
  /-- The parts before the last one. -/
  parents : List String
  last : String
  deriving DecidableEq, Repr

namespace Name

def parts (name : Name) : List String :=
  name.parents ++ [name.last]

end Name

/-- How a table came about. -/
inductive Origin where
  /-- By its own header. -/
  | header
  /-- On the way to another table. -/
  | implied
  /-- On the way to a value with a dotted name. -/
  | dotted
  deriving DecidableEq, Repr

/-- What stands under a name. -/
inductive Node where
  | value (d : Datum)
  | table (origin : Origin) (entries : List (String × Node))
  /-- Tables that share a name, the newest first. -/
  | rows (newestFirst : List (List (String × Node)))
  deriving Inhabited

/-- What stands in a table, in order. -/
abbrev Entries := List (String × Node)

/-! ## The finished document -/

mutual

def Node.toDatum : Node → Datum
  | .value d => d
  | .table _ entries => .table (entriesData entries) true
  | .rows newestFirst => .list (rowsData newestFirst).reverse true

def entriesData : List (String × Node) → List (String × Datum)
  | [] => []
  | (name, node) :: rest => (name, node.toDatum) :: entriesData rest

/-- Rows as data, in the order given. -/
def rowsData : List (List (String × Node)) → List Datum
  | [] => []
  | row :: rest => .table (entriesData row) true :: rowsData rest

end

namespace Entries

def toDatum (entries : Entries) : Datum :=
  .table (entriesData entries) true

/-! ## Building -/

/-- Changes what stands under a name, or puts something there at the end, unless `f` refuses. -/
def alter (name : String) (f : Option Node → Option Node) : Entries → Option Entries
  | [] => (f none).map fun node => [(name, node)]
  | (key, node) :: rest =>
    if key = name then (f (some node)).map fun node => (key, node) :: rest
    else (alter name f rest).map ((key, node) :: ·)

/-- Sets a value that is not set yet, under a dotted name. -/
def assign : (parents : List String) → (name : String) → Datum → Entries → Option Entries
  | [], name, d, entries =>
    entries.alter name fun
      | none => some (.value d)
      | some _ => none
  | parent :: rest, name, d, entries =>
    entries.alter parent fun
      | none => (assign rest name d []).map (.table .dotted)
      -- A table with a header of its own gets no values by dotted names.
      | some (.table .header _) => none
      -- The table that takes the value must have come about by a dotted name itself.
      | some (.table origin entries) =>
        if rest.isEmpty ∧ origin ≠ .dotted then none
        else (assign rest name d entries).map (.table origin)
      | some (.rows (newest :: older)) =>
        if rest.isEmpty then none
        else (assign rest name d newest).map fun newest => .rows (newest :: older)
      | some _ => none

/-- Changes the table that headers reach by a path; tables missing on the way come about. -/
def within : (path : List String) → (Entries → Option Entries) → Entries → Option Entries
  | [], f, entries => f entries
  | name :: rest, f, entries =>
    entries.alter name fun
      | none => (within rest f []).map (.table .implied)
      | some (.table origin entries) => (within rest f entries).map (.table origin)
      | some (.rows (newest :: older)) =>
        (within rest f newest).map fun newest => .rows (newest :: older)
      | some _ => none

/-- Opens a table by its header.  A table opened late comes last. -/
def openTable (name : Name) : Entries → Option Entries :=
  within name.parents fun entries =>
    match entries.lookup name.last with
    | none => some (entries ++ [(name.last, .table .header [])])
    | some (.table .implied inner) =>
      some (entries.filter (·.1 ≠ name.last) ++ [(name.last, .table .header inner)])
    | some _ => none

/-- Opens a further row of the tables that share a name. -/
def openRow (name : Name) : Entries → Option Entries :=
  within name.parents fun entries =>
    entries.alter name.last fun
      | none => some (.rows [[]])
      | some (.rows rows) => some (.rows ([] :: rows))
      | some _ => none

/-- The entries that members set one after another. -/
def ofMembers? (members : List (Name × Datum)) : Option Entries :=
  members.foldlM (fun entries (name, d) => entries.assign name.parents name.last d) []

end Entries

end Toml

end BridgeMint
