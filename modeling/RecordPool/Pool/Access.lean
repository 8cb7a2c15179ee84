import RecordPool.Pool.Notification

/-!
# Access to fields through proxies

A cell or a row reads and writes the record that a proxy points at, in the pool
that minted the proxy.  Reads and quiet writes go straight to the record; the
other writes tell the change listeners once, however many values they write.

The location is only checked on use.  What is wrong with the call itself (another
pool's proxy, an index beyond the row, a wrong number of values, a position that
no machine word holds) is found before anyone is told of a write; that the
location lies outside the record is found while writing.
-/

namespace RecordPool

open Pool

variable {σ : Type} [Store σ] {kind : Kind}

/-- Whether a write tells the change listeners. -/
inductive Notice where
  | quiet
  | told
  deriving DecidableEq

/-- Edits a record, telling the change listeners or not. -/
def Pool.edit {α : Type} (notice : Notice) (index : Nat) (edit : Edit α) :
    EStateM Fault (Pool σ) α :=
  match notice with
  | .quiet => editQuietly index edit
  | .told => editNotifying index edit

/-- The record that a proxy of this pool points at. -/
def Pool.ownRecord (pool : Pool σ) (proxy : Proxy) : Except Fault Record := do
  pool.guardOwner proxy
  pool.record proxy.index

/-! ## Cells -/

namespace Cell

/-- The value. -/
def get (cell : Cell kind) (pool : Pool σ) (proxy : Proxy) : Except Fault kind.Carrier := do
  cell.read (← pool.ownRecord proxy)

/-- The bytes of the value. -/
def image (cell : Cell kind) (pool : Pool σ) (proxy : Proxy) : Except Fault Bytes := do
  let record ← pool.ownRecord proxy
  record.contents.window cell.offset kind.size

/-- Writes the value. -/
def set (cell : Cell kind) (notice : Notice) (proxy : Proxy) (value : kind.Carrier) :
    EStateM Fault (Pool σ) Unit := do
  ofExcept ((← MonadState.get).guardOwner proxy)
  match notice with
  | .quiet => Pool.editQuietly proxy.index (cell.write value)
  | .told =>
      discard <| ofExcept cell.span
      Pool.editNotifying proxy.index (cell.write value)

/-- Writes the bytes of the value, quietly. -/
def setImage (cell : Cell kind) (proxy : Proxy) (image : Bytes) :
    EStateM Fault (Pool σ) Unit := do
  ofExcept ((← MonadState.get).guardOwner proxy)
  Pool.editQuietly proxy.index (Edit.copyInto cell.offset kind.size image)

end Cell

/-! ## Rows -/

namespace Row

/-- The value at an index. -/
def get (row : Row kind) (pool : Pool σ) (proxy : Proxy) (index : Nat) :
    Except Fault kind.Carrier := do
  let record ← pool.ownRecord proxy
  row.read record index

/-- All values, for a destination of `length` places, which is made first. -/
def valuesFor (row : Row kind) (pool : Pool σ) (proxy : Proxy) (length : Nat) :
    Except Fault (List kind.Carrier) := do
  Address.checkBlock (length * kind.size)
  pool.guardOwner proxy
  if length = row.count then
    let record ← pool.record proxy.index
    let span ← row.span
    let images ← record.contents.window span.start span.count
    kind.decodeAll row.count images
  else
    throw .destinationLength

/-- All values. -/
def values (row : Row kind) (pool : Pool σ) (proxy : Proxy) :
    Except Fault (List kind.Carrier) :=
  row.valuesFor pool proxy row.count

/-- The bytes of all values. -/
def image (row : Row kind) (pool : Pool σ) (proxy : Proxy) : Except Fault Bytes := do
  let record ← pool.ownRecord proxy
  let span ← row.span
  record.contents.window span.start span.count

/-- Writes the value at an index. -/
def set (row : Row kind) (notice : Notice) (proxy : Proxy) (index : Nat)
    (value : kind.Carrier) : EStateM Fault (Pool σ) Unit := do
  ofExcept ((← MonadState.get).guardOwner proxy)
  discard <| ofExcept (row.elementSpan index)
  Pool.edit notice proxy.index (row.write index value)

/-- Writes all values. -/
def setAll (row : Row kind) (notice : Notice) (proxy : Proxy)
    (values : List kind.Carrier) : EStateM Fault (Pool σ) Unit := do
  ofExcept ((← MonadState.get).guardOwner proxy)
  if values.length = row.count then
    let span ← ofExcept row.span
    Pool.edit notice proxy.index (Edit.putAll kind span.start span.count values)
  else
    throw .sourceLength

/-- Writes the bytes of all values, quietly. -/
def setImage (row : Row kind) (proxy : Proxy) (image : Bytes) :
    EStateM Fault (Pool σ) Unit := do
  ofExcept ((← MonadState.get).guardOwner proxy)
  let span ← ofExcept row.span
  Pool.editQuietly proxy.index (Edit.copyInto span.start span.count image)

end Row

end RecordPool
