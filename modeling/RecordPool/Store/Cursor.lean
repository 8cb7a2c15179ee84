import RecordPool.Store.Basic

/-!
# Cursors over a store

A cursor stands at one element of a store and reads and writes its values.  It
can be moved to any index; only use shows whether there is an element.
-/

namespace RecordPool.Store

/-- A store and the index of the element stood at. -/
structure Cursor (σ : Type) where
  store : σ
  index : Nat

namespace Cursor

variable {σ α : Type}

/-- A cursor at the first element. -/
def start (store : σ) : Cursor σ :=
  ⟨store, 0⟩

/-- The cursor at another index. -/
def moveTo (cursor : Cursor σ) (index : Nat) : Cursor σ :=
  { cursor with index := index }

variable [Elements σ]

/-- The contents of the element. -/
def contents (cursor : Cursor σ) : Except Fault Buffer :=
  Elements.element cursor.store cursor.index

/-- The value at a byte offset of the element. -/
def get (cursor : Cursor σ) (kind : Kind) (offset : Nat) : Except Fault kind.Carrier :=
  Elements.read cursor.store cursor.index kind offset

/-- Runs an edit on the element. -/
def edit (edit : Edit α) : EStateM Fault (Cursor σ) α := fun cursor =>
  match Elements.edit cursor.index edit cursor.store with
  | .ok value store => .ok value { cursor with store := store }
  | .error fault store => .error fault { cursor with store := store }

/-- Writes a value at a byte offset of the element. -/
def put (kind : Kind) (offset : Nat) (value : kind.Carrier) : EStateM Fault (Cursor σ) Unit :=
  edit (Edit.put kind offset value)

/-- Copies `count` bytes from `offset` on of another element over those of this
one.  Nothing is done for the element itself. -/
def copyRange (source offset count : Nat) : EStateM Fault (Cursor σ) Unit := do
  let cursor ← MonadState.get
  if source = cursor.index then
    return ()
  else
    let contents ← ofExcept (Elements.element cursor.store source)
    let run ← ofExcept (contents.window offset count)
    edit (Edit.splice offset run)

end Cursor

end RecordPool.Store
