import RecordPool.Focus
import RecordPool.Store.Basic

/-!
# Stores in one block of memory

A `Flat` store lays its elements end to end in one block of bytes, so that element `i`
starts at byte `i * elementSize`, and bounds the block by a number of bytes of its own.
The block is taken from a medium.  A `Heap` keeps it on the heap of the program and
lengthens it there; a `Mapped` store asks the system for a new region whenever it grows
and copies the old one into it.

Positions in the block are reckoned in machine words, and every run of bytes that is read
or written is checked against the block.
-/

namespace RecordPool

/-- Where blocks of memory are taken from. -/
inductive Medium where
  | heap
  | mapped
  deriving DecidableEq

/-- Elements end to end in one block. -/
structure Flat (medium : Medium) where
  /-- The bytes of the elements.  A mapped store without elements has no region, and its
  block no bytes. -/
  block : Buffer
  /-- The bytes of an element. -/
  elementSize : Nat
  size : Nat
  maxBytes : Nat
  /-- What becomes of the requests for regions.  A heap makes none. -/
  mapper : Mapper
  /-- The number of regions asked for so far. -/
  requests : Nat

/-- A store on the heap of the program. -/
abbrev Heap := Flat .heap

/-- A store in a region of memory that the system maps. -/
abbrev Mapped := Flat .mapped

namespace Flat

variable {medium : Medium}

/-- The number of elements that the bound leaves room for. -/
def maxSize (store : Flat medium) : Nat :=
  store.maxBytes / store.elementSize

/-- The bytes of the block. -/
def heldBytes (store : Flat medium) : Nat :=
  store.block.size

/-- The fault of an element that is not there. -/
def outOfBounds (store : Flat medium) (index : Nat) : Fault :=
  .elementOutOfBounds index store.size

/-- The bytes of an element in the block. -/
def byteRange (store : Flat medium) (index : Nat) : Except Fault Span :=
  if index < store.size then do
    let start ← Address.check (index * store.elementSize)
    Span.check start store.elementSize
  else
    .error (store.outOfBounds index)

/-- The bytes of the block for a number of elements. -/
def bytesFor (store : Flat medium) (count : Nat) : Except Fault Nat :=
  Address.check (count * store.elementSize)

/-! ## Growing -/

/-- Lengthens the block by zeros. -/
def extend (bytes : Nat) : EStateM (Failure Store.Error) (Flat medium) Unit := do
  orFault (Address.checkBlock bytes)
  modify fun store => { store with block := store.block.resize bytes }

/-- Maps a new region and copies the block to its beginning. -/
def remap (bytes : Nat) : EStateM (Failure Store.Error) (Flat medium) Unit := do
  let store ← get
  modify fun store => { store with requests := store.requests + 1 }
  if store.mapper.maps store.requests bytes then
    let region := Buffer.zeros bytes
    let beginning ← orFault (region.whole.part store.block.whole)
    let block ← orFault (region.copyInto beginning store.block)
    modify fun asked => { asked with block := block }
  else
    throw (.refused .mapFailed)

/-- Makes the block one of a larger number of bytes. -/
def grow (bytes : Nat) : EStateM (Failure Store.Error) (Flat medium) Unit :=
  match medium with
  | .heap => extend bytes
  | .mapped => remap bytes

/-- Grows the store. -/
def resize (count : Nat) : EStateM (Failure Store.Error) (Flat medium) Unit := do
  let store ← get
  if count ≤ store.size then
    return ()
  else if store.maxSize < count then
    throw (.refused (.capacityExceeded count store.maxSize))
  else
    let bytes ← orFault (store.bytesFor count)
    grow bytes
    modify fun grown => { grown with size := count }

/-! ## Elements -/

/-- The contents of an element. -/
def element (store : Flat medium) (index : Nat) : Except Fault Buffer := do
  let range ← store.byteRange index
  let place ← store.block.whole.part range
  return store.block.read place

/-- Writes over an element with as many bytes. -/
def overwrite (index : Nat) (contents : Buffer) : EStateM Fault (Flat medium) Unit := do
  let store ← get
  let range ← ofExcept (store.byteRange index)
  let place ← ofExcept (store.block.whole.part range)
  let block ← ofExcept (store.block.copyInto place contents)
  modify fun store => { store with block := block }

instance : Elements (Flat medium) where
  elementSize := elementSize
  size := size
  element := element
  overwrite := overwrite

/-- The block with two elements exchanged, the lower one named first: it is split where
the higher one starts, which is then the first of the second part. -/
def exchanged (store : Flat medium) (low high : Nat) : Except Fault Buffer := do
  let lowRange ← store.byteRange low
  let highRange ← store.byteRange high
  let (front, back) ← store.block.whole.splitAt highRange.start
  let lowPlace ← front.part lowRange
  let highPlace ← back.part ⟨0, store.elementSize⟩
  store.block.exchange lowPlace highPlace

/-- Exchanges two elements inside the block. -/
def exchange (left right : Nat) : EStateM Fault (Flat medium) Unit := do
  let store ← get
  if left = right then
    return ()
  else
    let block ← ofExcept (store.exchanged (min left right) (max left right))
    modify fun store => { store with block := block }

/-- Exchanges two elements: on the heap inside the block, in mapped memory by way of
a scratch copy. -/
def swap (left right : Nat) : EStateM Fault (Flat medium) Unit :=
  match medium with
  | .heap => exchange left right
  | .mapped => Elements.swapByCopy left right

instance : Store (Flat medium) where
  maxSize := maxSize
  resize := resize
  swap := swap
  heldBytes := heldBytes

/-! ## Opening -/

/-- A store without elements yet. -/
def empty (elementSize maxBytes : Nat) (mapper : Mapper) : Flat medium :=
  ⟨.zeros 0, elementSize, 0, maxBytes, mapper, 0⟩

/-- A store whose block may have a number of bytes. -/
def createBounded (elementSize count maxBytes : Nat) (mapper : Mapper := System.usual.mapper 0) :
    Except (Failure Store.Error) (Flat medium) :=
  if elementSize = 0 then
    .error (.refused (.invalidConfig .emptyElements))
  else
    match resize count (empty elementSize maxBytes mapper) with
    | .ok _ store => .ok store
    | .error failure _ => .error failure

/-- A store with the usual bound. -/
def create (elementSize count : Nat) (mapper : Mapper) :
    Except (Failure Store.Error) (Flat medium) :=
  createBounded elementSize count Store.defaultMaxBytes mapper

instance : SubStore (Flat medium) where
  allocate system attempt elementSize count := create elementSize count (system.mapper attempt)

/-- The text of a mapped store. -/
def describe (store : Mapped) : String :=
  s!"MappedStorage \x7b element_size: {store.elementSize}, len: {store.size}, " ++
    s!"max_bytes: {store.maxBytes} \x7d"

end Flat

end RecordPool
