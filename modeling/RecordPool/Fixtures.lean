import RecordPool.Layout.Draft

/-!
# Standard layouts

Three record types to try pools with: one number, a particle in space, and a
record with a field of every kind.
-/

namespace RecordPool

/-- The standard record types. -/
inductive Fixture where
  /-- A single number. -/
  | int
  /-- A position, a mass and whether the particle is alive. -/
  | particle
  /-- A field of every kind, and a row of tags. -/
  | mixed
  deriving DecidableEq

namespace Fixture

/-- The fields of a record type. -/
def declarations : Fixture → List Declaration
  | .int => [.single "value" .i32]
  | .particle => [⟨"pos", .f64, 3⟩, .single "mass" .f32, .single "alive" .bool]
  | .mixed =>
      [.single "flag" .bool,
        .single "byte" .i8,
        .single "ubyte" .u8,
        .single "short" .i16,
        .single "ushort" .u16,
        .single "int" .i32,
        .single "uint" .u32,
        .single "long" .i64,
        .single "ulong" .u64,
        .single "float" .f32,
        .single "double" .f64,
        ⟨"tags", .u16, 4⟩]

/-- The record type of a name. -/
def ofName? : String → Option Fixture
  | "int" => some .int
  | "particle" => some .particle
  | "mixed" => some .mixed
  | _ => none

/-- The layout of a record type. -/
def layout (fixture : Fixture) : Except Layout.Error Layout :=
  Layout.ofDeclarations fixture.declarations

/-- The text of the accessor that is typical of a record type. -/
def accessorText (fixture : Fixture) : Except Layout.Error String := do
  let layout ← fixture.layout
  match fixture with
  | .int => return (← layout.cell "value" .i32).accessorText
  | .particle => return (← layout.point "pos").accessorText
  | .mixed => return (← layout.row "tags" .u16).accessorText

end Fixture

end RecordPool
