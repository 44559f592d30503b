import BridgeMint.Data.Datum
import BridgeMint.Notice

/-!
# Log lines

A notice as a line of a log: data for programs, or a sentence with its fields for people.
-/

namespace BridgeMint

namespace FieldValue

def toDatum : FieldValue → Datum
  | number n => .integer n
  | truth b => .truth b
  | text s => .text s

end FieldValue

namespace Notice

/-- A notice as data, with the time at which it was given. -/
def toDatum (timestamp : String) (notice : Notice) : Datum :=
  .table [
    ("timestamp", .text timestamp),
    ("level", .text notice.severity.label),
    ("fields", .table (("message", .text notice.message) ::
      notice.fields.map fun (name, value) => (name, value.toDatum)) true),
    ("target", .text notice.source)] true

def sentence (notice : Notice) : String :=
  notice.severity.label ++ " " ++ notice.source ++ ": " ++ notice.message ++
    String.join (notice.fields.map fun (name, value) => s!" {name}={value.render}")

end Notice

end BridgeMint
