import RecordPool.Buffer
import RecordPool.Value

/-!
# Edits of a record

An edit is a program over the bytes of one record.  It may read and overwrite
them and it may end in a fault, in which case what it had written stays
written.  It cannot lengthen or shorten the record: the type keeps that
promise, and `pure`, `bind` and the primitive edits below preserve it.
-/

namespace RecordPool

/-- What a run over a record leaves of it, whether it ended well or not. -/
def contentsLeft {α : Type} : EStateM.Result Fault Buffer α → Buffer
  | .ok _ contents => contents
  | .error _ contents => contents

/-- A program over the bytes of one record that keeps their number. -/
structure Edit (α : Type) where
  /-- The outcome on given contents. -/
  run : Buffer → EStateM.Result Fault Buffer α
  /-- No run changes the size. -/
  size_run : ∀ contents, (contentsLeft (run contents)).size = contents.size

namespace Edit

variable {α β : Type}

/-- The edit that does nothing. -/
protected def pure (value : α) : Edit α where
  run contents := .ok value contents
  size_run _ := rfl

/-- One edit after another. -/
protected def bind (first : Edit α) (next : α → Edit β) : Edit β where
  run contents :=
    match first.run contents with
    | .ok value left => (next value).run left
    | .error fault left => .error fault left
  size_run contents := by
    have kept := first.size_run contents
    cases outcome : first.run contents with
    | ok value left =>
        rw [outcome] at kept
        exact ((next value).size_run left).trans kept
    | error fault left =>
        rw [outcome] at kept
        exact kept

instance : Monad Edit where
  pure := Edit.pure
  bind := Edit.bind

/-- The edit that ends in a fault. -/
def fault (fault : Fault) : Edit α where
  run contents := .error fault contents
  size_run _ := rfl

/-- The edit that has the outcome of a computation. -/
def ofExcept : Except Fault α → Edit α
  | .ok value => Edit.pure value
  | .error fault => Edit.fault fault

/-- The contents of the record. -/
def contents : Edit Buffer where
  run contents := .ok contents contents
  size_run _ := rfl

/-- Overwrites the bytes from `start`, all of which must lie inside the record. -/
def splice (start : Nat) (replacement : Bytes) : Edit Unit where
  run contents :=
    if start + replacement.length ≤ contents.size then
      .ok () (contents.writeAt start replacement)
    else
      .error .byteRange contents
  size_run contents := by
    split <;> simp [contentsLeft]

/-- Overwrites `count` bytes from `start` with as many others. -/
def copyInto (start count : Nat) (replacement : Bytes) : Edit Unit := do
  let current ← contents
  discard <| ofExcept (current.window start count)
  if replacement.length = count then
    splice start replacement
  else
    Edit.fault .byteCount

/-- Overwrites the whole record with as many other bytes. -/
def fill (replacement : Bytes) : Edit Unit := do
  let current ← contents
  if replacement.length = current.size then
    splice 0 replacement
  else
    Edit.fault .byteCount

/-- Makes every byte zero. -/
def zero : Edit Unit where
  run contents := .ok () (Buffer.zeros contents.size)
  size_run contents := by simp [contentsLeft]

/-- Reads a value at a byte offset. -/
def get (kind : Kind) (offset : Nat) : Edit kind.Carrier := do
  let current ← contents
  let image ← ofExcept (current.window offset kind.size)
  ofExcept (kind.decode image)

/-- Writes a value at a byte offset. -/
def put (kind : Kind) (offset : Nat) (value : kind.Carrier) : Edit Unit :=
  splice offset (kind.encode value)

/-! ## Chunks -/

/-- Writes the image of a value over the `count` bytes from `start`. -/
def putOver (kind : Kind) (start count : Nat) (value : kind.Carrier) : Edit Unit := do
  let current ← contents
  let chunk ← ofExcept (current.window start count)
  let image ← ofExcept (kind.encodeInto value chunk)
  splice start image

/-- Writes values over the chunks, as wide as the kind, of the `count` bytes from `start`.
It ends with the values or with the chunks, whichever are fewer; bytes after the last whole
chunk are not a chunk. -/
def putChunks (kind : Kind) (start count : Nat) : (values : List kind.Carrier) → Edit Unit
  | [] => pure ()
  | value :: rest =>
      if kind.size ≤ count then do
        putOver kind start kind.size value
        putChunks kind (start + kind.size) (count - kind.size) rest
      else
        pure ()

/-- Writes values one after another over the `count` bytes from `start`, all of which must
lie inside the record. -/
def putAll (kind : Kind) (start count : Nat) (values : List kind.Carrier) : Edit Unit := do
  let current ← contents
  discard <| ofExcept (current.window start count)
  putChunks kind start count values

end Edit

end RecordPool
