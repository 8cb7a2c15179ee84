import RecordPool.Layout.Error
import RecordPool.Layout.Location

/-!
# Layouts

A layout is the ordered list of the fields of a record type.  The fields lie one
after another without gaps, and the end of the last one is the size of a record.
`Layout.cell` and `Layout.row` find the location of a field by its name, the kind
asked for and its shape.  Layouts are built by `RecordPool.Layout.Draft`.
-/

namespace RecordPool

/-- What is declared of a field: its name, the kind of its values and how many
there are. -/
structure Declaration where
  name : String
  kind : Kind
  count : Nat
  deriving DecidableEq

namespace Declaration

/-- The number of bytes that the values take. -/
def size (declaration : Declaration) : Nat :=
  declaration.kind.size * declaration.count

/-- The declaration of a single value. -/
def single (name : String) (kind : Kind) : Declaration :=
  ⟨name, kind, 1⟩

end Declaration

/-- A declared field at its place in the record. -/
structure Field extends Declaration where
  offset : Nat
  deriving DecidableEq

namespace Field

/-- The position after the last byte. -/
def stop (field : Field) : Nat :=
  field.offset + field.size

/-- The field as a location of values of a kind. -/
def row (field : Field) (kind : Kind) : Row kind :=
  ⟨field.offset, field.count⟩

end Field

/-- The fields of a record type, in the order of their declaration, and the size
of a record. -/
structure Layout where
  fields : List Field
  recordSize : Nat

namespace Layout

/-- The number of fields. -/
def fieldCount (layout : Layout) : Nat :=
  layout.fields.length

/-- The field of a name. -/
def field? (layout : Layout) (name : String) : Option Field :=
  layout.fields.find? fun field => field.name = name

/-- The field of a name, if it holds values of the kind asked for. -/
def fieldOfKind (layout : Layout) (name : String) (kind : Kind) : Except Error Field :=
  match layout.field? name with
  | none => .error (.unknownField name)
  | some field =>
      if field.kind = kind then
        .ok field
      else
        .error (.kindMismatch name field.kind kind)

/-- The location of a field that is a single value. -/
def cell (layout : Layout) (name : String) (kind : Kind) : Except Error (Cell kind) := do
  let field ← layout.fieldOfKind name kind
  if field.count = 1 then
    return ⟨field.offset⟩
  else
    throw (.shapeMismatch name field.count)

/-- The location of a field, as a row whatever its shape. -/
def row (layout : Layout) (name : String) (kind : Kind) : Except Error (Row kind) := do
  let field ← layout.fieldOfKind name kind
  return field.row kind

/-- The location of a field of coordinates. -/
def point (layout : Layout) (name : String) : Except Error Point := do
  let coordinates ← layout.row name .f64
  return ⟨coordinates⟩

/-- Two layouts are equal when they have equally many fields, every field of the
one is a field of the other, and their records are equally long.  The order of
the fields need not be looked at: their offsets tell it. -/
instance : BEq Layout where
  beq left right :=
    left.fieldCount = right.fieldCount
      && left.fields.all (fun field => right.field? field.name = some field)
      && left.recordSize = right.recordSize

end Layout

end RecordPool
