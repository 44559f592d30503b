import BridgeMint.Data.Datum

/-!
# Records in structured data

A record is read from a table of named fields, or from a list of its fields in order.  Fields that
are not there keep the values of a default.  A record may refuse fields it does not know, and never
takes a field twice.
-/

namespace BridgeMint

/-- A named field of a record, with the way to read it into the record. -/
structure FieldShape (ρ : Type) where
  name : String
  read : Datum → ρ → Except MeaningError ρ

/-- The shape of a record. -/
structure RecordShape (ρ : Type) where
  /-- What a fault calls the record. -/
  kind : String
  fields : List (FieldShape ρ)
  /-- Whether fields of other names are refused. -/
  closed : Bool

namespace FieldShape

/-- A field read by `read` and put in place by `set`. -/
def of {ρ α : Type} (name : String) (read : Datum → Except MeaningError α) (put : α → ρ → ρ) :
    FieldShape ρ where
  name := name
  read d record := (read d).map (put · record)

end FieldShape

namespace RecordShape

variable {ρ : Type}

def names (shape : RecordShape ρ) : List String :=
  shape.fields.map (·.name)

/-- Reads members in order; `seen` are the fields already taken. -/
def readMembers (shape : RecordShape ρ) : (seen : List String) → List (String × Datum) → ρ →
    Except MeaningError ρ
  | _, [], record => .ok record
  | seen, (name, value) :: rest, record =>
    match shape.fields.find? (·.name == name) with
    | none =>
      if shape.closed then .error (.unknownField name shape.names)
      else readMembers shape seen rest record
    | some field =>
      if seen.contains name then .error (.duplicateField name)
      else
        match field.read value record with
        | .error e => .error e
        | .ok record => readMembers shape (name :: seen) rest record

/-- Reads items as fields in order, and hands back the items left over. -/
def readItems : List (FieldShape ρ) → List Datum → ρ → Except MeaningError (ρ × List Datum)
  | [], items, record => .ok (record, items)
  | _ :: _, [], record => .ok (record, [])
  | field :: fields, item :: items, record =>
    match field.read item record with
    | .error e => .error e
    | .ok record => readItems fields items record

/-- The name under which a date appears to a reader of tables. -/
def momentKey : String := "$__toml_private_datetime"

/-- Reads a record over a default.  Items beyond the last field are ignored if `surplus`, and make
the text malformed otherwise. -/
def read (shape : RecordShape ρ) (surplus : Bool) (default : ρ) : Datum → Except MeaningError ρ
  | .table members intact =>
    match shape.readMembers [] members default with
    | .error e => .error e
    | .ok record => if intact then .ok record else .error .malformed
  | .list items intact =>
    match readItems shape.fields items default with
    | .error e => .error e
    | .ok (record, rest) =>
      if intact && (surplus || rest.isEmpty) then .ok record else .error .malformed
  | .moment => shape.readMembers [] [(momentKey, .text "")] default
  | d => .error (d.mismatch shape.kind)

end RecordShape

end BridgeMint
