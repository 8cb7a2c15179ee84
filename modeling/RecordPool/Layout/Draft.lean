import RecordPool.Layout.Basic

/-!
# Drafts of layouts

A draft collects declarations and gives each field the offset at which the ones
before it end.  It remembers the first declaration that cannot stand; from then
on nothing is added, and building the layout reports that error.
-/

namespace RecordPool.Layout

/-- A layout under declaration. -/
structure Draft where
  /-- The fields so far, in the order of their declaration. -/
  fields : List Field := []
  /-- The position at which the next field starts. -/
  size : Nat := 0
  /-- The first error. -/
  error : Option Error := none

namespace Draft

/-- Why a declaration cannot stand after the fields so far. -/
def objection? (draft : Draft) (declaration : Declaration) : Option Error :=
  if declaration.count = 0 then
    some (.emptyArray declaration.name)
  else if draft.fields.any (fun field => field.name = declaration.name) then
    some (.duplicateField declaration.name)
  else if Address.limit ≤ draft.size + declaration.size then
    some (.sizeOverflow declaration.name)
  else
    none

/-- The draft with one more declaration. -/
def declare (draft : Draft) (declaration : Declaration) : Draft :=
  match draft.error with
  | some _ => draft
  | none =>
      match draft.objection? declaration with
      | some error => { draft with error := some error }
      | none =>
          { draft with
            fields := draft.fields ++ [{ declaration with offset := draft.size }]
            size := draft.size + declaration.size }

/-- Declares a single value and gives its location. -/
def cell (draft : Draft) (name : String) (kind : Kind) : Cell kind × Draft :=
  (⟨draft.size⟩, draft.declare (.single name kind))

/-- Declares a row of values and gives its location. -/
def row (draft : Draft) (name : String) (kind : Kind) (count : Nat) : Row kind × Draft :=
  (⟨draft.size, count⟩, draft.declare ⟨name, kind, count⟩)

/-- The layout of the declared fields. -/
def build (draft : Draft) : Except Error Layout :=
  match draft.error with
  | some error => .error error
  | none =>
      if draft.fields.isEmpty then
        .error .noFields
      else
        .ok ⟨draft.fields, draft.size⟩

end Draft

/-- The layout of a list of declarations. -/
def ofDeclarations (declarations : List Declaration) : Except Error Layout :=
  (declarations.foldl Draft.declare {}).build

end RecordPool.Layout
