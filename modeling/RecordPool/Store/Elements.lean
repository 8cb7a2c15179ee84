import RecordPool.Record

/-!
# Arrays of elements

What all stores have in common: some number of elements of one size in bytes,
each of which can be read and written over by its index.  Using an element that
is not there is a fault.

Typed reads and writes, copies, edits and the plain exchange of two elements are
written here once, for every such array.
-/

namespace RecordPool

/-- An array of equal-sized elements. -/
class Elements (σ : Type) where
  /-- The bytes of an element. -/
  elementSize : σ → Nat
  /-- The number of elements. -/
  size : σ → Nat
  /-- The contents of an element. -/
  element : σ → Nat → Except Fault Buffer
  /-- Writes over an element with contents of its size. -/
  overwrite : Nat → Buffer → EStateM Fault σ Unit

namespace Elements

variable {σ α : Type} [Elements σ]

/-- Whether there are no elements. -/
def isEmpty (store : σ) : Bool :=
  size store = 0

/-- Runs an edit on an element.  When the edit ends in a fault, what it wrote
stays. -/
def edit (index : Nat) (edit : Edit α) : EStateM Fault σ α := do
  let contents ← ofExcept (element (← get) index)
  match edit.run contents with
  | .ok value left =>
      overwrite index left
      return value
  | .error fault left =>
      overwrite index left
      throw fault

/-- The value at a byte offset of an element. -/
def read (store : σ) (index : Nat) (kind : Kind) (offset : Nat) :
    Except Fault kind.Carrier := do
  let contents ← element store index
  Record.get ⟨index, contents⟩ kind offset

/-- Writes a value at a byte offset of an element. -/
def write (index : Nat) (kind : Kind) (offset : Nat) (value : kind.Carrier) :
    EStateM Fault σ Unit :=
  edit index (Edit.put kind offset value)

/-- Replaces an element by as many other bytes. -/
def fill (index : Nat) (bytes : Bytes) : EStateM Fault σ Unit :=
  edit index (Edit.fill bytes)

/-- Copies one element over another.  Nothing is done for an element and itself. -/
def copy (source target : Nat) : EStateM Fault σ Unit := do
  if source = target then
    return ()
  else
    let contents ← ofExcept (element (← get) source)
    overwrite target contents

/-- Exchanges two elements by way of a scratch copy.  Nothing is done for an
element and itself. -/
def swapByCopy (left right : Nat) : EStateM Fault σ Unit := do
  if left = right then
    return ()
  else
    let scratch ← ofExcept (element (← get) left)
    copy right left
    overwrite right scratch

/-- The contents of all elements. -/
def dump (store : σ) : Except Fault (List Buffer) :=
  (List.range (size store)).mapM (element store)

end Elements

end RecordPool
