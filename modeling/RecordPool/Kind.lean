/-!
# Kinds of primitive values

Every field of a record holds values of one of eleven kinds.  A kind fixes the
width of a value in bytes and its spelling in texts.
-/

namespace RecordPool

/-- The kinds of primitive values. -/
inductive Kind where
  | bool
  | i8
  | u8
  | i16
  | u16
  | i32
  | u32
  | i64
  | u64
  | f32
  | f64
  deriving DecidableEq

namespace Kind

/-- All kinds, from the narrowest to the widest of each family. -/
def all : List Kind :=
  [.bool, .i8, .u8, .i16, .u16, .i32, .u32, .i64, .u64, .f32, .f64]

/-- The width of a value in bytes. -/
def size : Kind → Nat
  | .bool => 1
  | .i8 => 1
  | .u8 => 1
  | .i16 => 2
  | .u16 => 2
  | .i32 => 4
  | .u32 => 4
  | .i64 => 8
  | .u64 => 8
  | .f32 => 4
  | .f64 => 8

/-- No kind is empty. -/
theorem size_pos (kind : Kind) : 0 < kind.size := by
  cases kind <;> decide

/-- The name of a kind in error texts and descriptions. -/
def name : Kind → String
  | .bool => "bool"
  | .i8 => "i8"
  | .u8 => "u8"
  | .i16 => "i16"
  | .u16 => "u16"
  | .i32 => "i32"
  | .u32 => "u32"
  | .i64 => "i64"
  | .u64 => "u64"
  | .f32 => "f32"
  | .f64 => "f64"

/-- The capitalised name of a kind, used inside accessor descriptions. -/
def title (kind : Kind) : String :=
  kind.name.capitalize

/-- The kind of a given name. -/
def ofName? (name : String) : Option Kind :=
  all.find? fun kind => kind.name = name

end Kind

end RecordPool
