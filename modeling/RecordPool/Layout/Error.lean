import RecordPool.Kind

/-!
# Layout errors

The first three reject a declaration, the fourth a layout without fields, and
the last three a lookup.
-/

namespace RecordPool.Layout

/-- Why a layout cannot be built, or a field not be found in it. -/
inductive Error where
  /-- A field of the name has been declared already. -/
  | duplicateField (name : String)
  /-- A row of no values. -/
  | emptyArray (name : String)
  /-- With this field the record would be too long to address. -/
  | sizeOverflow (name : String)
  /-- Nothing was declared. -/
  | noFields
  /-- No field has the name. -/
  | unknownField (name : String)
  /-- The field holds values of another kind. -/
  | kindMismatch (name : String) (declared requested : Kind)
  /-- The field is not a single value. -/
  | shapeMismatch (name : String) (count : Nat)
  deriving DecidableEq

/-- The name of the cause of an error. -/
def Error.name : Error → String
  | .duplicateField .. => "DuplicateField"
  | .emptyArray .. => "EmptyArray"
  | .sizeOverflow .. => "SizeOverflow"
  | .noFields => "NoFields"
  | .unknownField .. => "UnknownField"
  | .kindMismatch .. => "KindMismatch"
  | .shapeMismatch .. => "ShapeMismatch"

/-- The text of an error. -/
def Error.message : Error → String
  | .duplicateField name => s!"duplicate field '{name}'"
  | .emptyArray name => s!"array field '{name}' has zero elements"
  | .sizeOverflow name => s!"record size overflows usize at field '{name}'"
  | .noFields => "layout has no fields"
  | .unknownField name => s!"unknown field '{name}'"
  | .kindMismatch name declared requested =>
      s!"field '{name}' is declared as {declared.name}, requested as {requested.name}"
  | .shapeMismatch name count =>
      s!"field '{name}' has {count} elements; wrong shape requested"

end RecordPool.Layout
