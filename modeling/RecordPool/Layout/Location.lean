import RecordPool.Address
import RecordPool.Record

/-!
# Locations inside a record

A location says where values of one kind lie in a record: a `Cell` is one value,
a `Row` is several in succession, and a `Point` is a row of double-precision
coordinates.  Locations are handed out by layouts, or made for any offset; only
their use on a record shows whether they lie inside it.

The functions of this file work on a record at hand.  Access to a record through
a proxy and its pool is in `RecordPool.Pool.Access`.
-/

namespace RecordPool

/-! ## Single values -/

/-- Where one value of a kind lies. -/
structure Cell (kind : Kind) where
  offset : Nat
  deriving DecidableEq

namespace Cell

variable {kind : Kind}

/-- The bytes of the cell. -/
def span (cell : Cell kind) : Except Fault Span :=
  Span.check cell.offset kind.size

/-- The value in a record. -/
def read (cell : Cell kind) (record : Record) : Except Fault kind.Carrier :=
  record.get kind cell.offset

/-- Writes the value in a record. -/
def write (cell : Cell kind) (value : kind.Carrier) : Edit Unit :=
  Edit.put kind cell.offset value

/-- The text of a cell as a location. -/
def locationText (cell : Cell kind) : String :=
  s!"ScalarField<{kind.name}>(@{cell.offset})"

/-- The text of a cell as an accessor. -/
def accessorText (cell : Cell kind) : String :=
  s!"Attribute \x7b kind: {kind.title}, offset: {cell.offset} \x7d"

end Cell

/-! ## Rows of values -/

/-- Where `count` values of a kind lie, one after another. -/
structure Row (kind : Kind) where
  offset : Nat
  count : Nat
  deriving DecidableEq

namespace Row

variable {kind : Kind}

/-- The byte offset of the value at an index, which need not be below the count. -/
def offsetOf (row : Row kind) (index : Nat) : Except Fault Nat :=
  Address.check (row.offset + index * kind.size)

/-- The bytes of the value at an index below the count. -/
def elementSpan (row : Row kind) (index : Nat) : Except Fault Span :=
  if index < row.count then
    Span.check (row.offset + index * kind.size) kind.size
  else
    .error (.rowIndexOutOfBounds index row.count)

/-- The bytes of the whole row. -/
def span (row : Row kind) : Except Fault Span :=
  Span.check row.offset (row.count * kind.size)

/-- The value at an index in a record. -/
def read (row : Row kind) (record : Record) (index : Nat) : Except Fault kind.Carrier := do
  let span ← row.elementSpan index
  let image ← record.contents.window span.start span.count
  kind.decode image

/-- Writes the value at an index in a record. -/
def write (row : Row kind) (index : Nat) (value : kind.Carrier) : Edit Unit := do
  let span ← Edit.ofExcept (row.elementSpan index)
  Edit.splice span.start (kind.encode value)

/-- The text of a row as a location. -/
def locationText (row : Row kind) : String :=
  s!"ArrayField<{kind.name}; {row.count}>(@{row.offset})"

/-- The text of a row as an accessor. -/
def accessorText (row : Row kind) : String :=
  s!"ArrayAttribute \x7b kind: {kind.title}, offset: {row.offset}, len: {row.count} \x7d"

end Row

/-! ## Points -/

/-- A position vector: a row of double-precision coordinates, one for each axis. -/
structure Point where
  coordinates : Row .f64
  deriving DecidableEq

namespace Point

/-- The number of axes. -/
def dimension (point : Point) : Nat :=
  point.coordinates.count

/-- The coordinates in a record on `count` axes from `axis` on.  The walk ends at the
first axis that is not there, however many are left. -/
def readFrom (point : Point) (record : Record) (axis : Nat) :
    (count : Nat) → Except Fault (List Binary64)
  | 0 => .ok []
  | count + 1 => do
      let coordinate ← point.coordinates.read record axis
      let others ← point.readFrom record (axis + 1) count
      return coordinate :: others

/-- The coordinates in a record, axis by axis. -/
def read (point : Point) (record : Record) : Except Fault (List Binary64) :=
  point.readFrom record 0 point.dimension

/-- Adds the steps of a delta to the coordinates that start at a byte offset. -/
def shiftFrom (add : Binary64 → Binary64 → Binary64) :
    (offset : Nat) → (delta : List Binary64) → Edit Unit
  | _, [] => pure ()
  | offset, step :: rest => do
      let current ← Edit.get .f64 offset
      Edit.put .f64 offset (add current step)
      shiftFrom add (offset + Kind.f64.size) rest

/-- Adds a delta to the coordinates in a record, axis by axis and in place: when
an axis does not lie inside the record, the axes before it stay moved. -/
def shift (point : Point) (add : Binary64 → Binary64 → Binary64) (delta : List Binary64) :
    Edit Unit :=
  shiftFrom add point.coordinates.offset delta

/-- The text of a point as an accessor. -/
def accessorText (point : Point) : String :=
  s!"PointAttribute \x7b coords: {point.coordinates.accessorText} \x7d"

end Point

end RecordPool
