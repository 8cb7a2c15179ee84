import RecordPool.Focus
import RecordPool.Store.Chain
import RecordPool.Store.Flat

/-!
# Stores chosen at run time

A `Backend` is one of the kinds of stores and does everything in the way of the
store it is.  `BackendKind` names the choices that a configuration offers.
-/

namespace RecordPool

/-- The stores that a configuration can ask for. -/
inductive BackendKind where
  | heap
  | mapped
  /-- A chain of heaps of the given length. -/
  | chain (arrayLength : Nat)
  deriving DecidableEq

namespace BackendKind

/-- The length of the heaps of a chain when none is asked for. -/
def defaultArrayLength : Nat := 1024 * 1024

end BackendKind

/-- One of the kinds of stores. -/
inductive Backend where
  | heap (store : Heap)
  | mapped (store : Mapped)
  | chain (store : Chain Heap)
  | mappedChain (store : Chain Mapped)

namespace Backend

/-- The bytes of an element. -/
def elementSize : Backend → Nat
  | .heap store => Elements.elementSize store
  | .mapped store => Elements.elementSize store
  | .chain store => Elements.elementSize store
  | .mappedChain store => Elements.elementSize store

/-- The number of elements. -/
def size : Backend → Nat
  | .heap store => Elements.size store
  | .mapped store => Elements.size store
  | .chain store => Elements.size store
  | .mappedChain store => Elements.size store

/-- The number of elements that the store can grow to. -/
def maxSize : Backend → Nat
  | .heap store => Store.maxSize store
  | .mapped store => Store.maxSize store
  | .chain store => Store.maxSize store
  | .mappedChain store => Store.maxSize store

/-- The bytes that the store holds. -/
def heldBytes : Backend → Nat
  | .heap store => Store.heldBytes store
  | .mapped store => Store.heldBytes store
  | .chain store => Store.heldBytes store
  | .mappedChain store => Store.heldBytes store

/-- The contents of an element. -/
def element (backend : Backend) (index : Nat) : Except Fault Buffer :=
  match backend with
  | .heap store => Elements.element store index
  | .mapped store => Elements.element store index
  | .chain store => Elements.element store index
  | .mappedChain store => Elements.element store index

/-- Grows the store. -/
def resize (count : Nat) : EStateM (Failure Store.Error) Backend Unit
  | .heap store => wrapped .heap (Store.resize count store)
  | .mapped store => wrapped .mapped (Store.resize count store)
  | .chain store => wrapped .chain (Store.resize count store)
  | .mappedChain store => wrapped .mappedChain (Store.resize count store)

/-- Writes over an element. -/
def overwrite (index : Nat) (contents : Buffer) : EStateM Fault Backend Unit
  | .heap store => wrapped .heap (Elements.overwrite index contents store)
  | .mapped store => wrapped .mapped (Elements.overwrite index contents store)
  | .chain store => wrapped .chain (Elements.overwrite index contents store)
  | .mappedChain store => wrapped .mappedChain (Elements.overwrite index contents store)

/-- Exchanges two elements. -/
def swap (left right : Nat) : EStateM Fault Backend Unit
  | .heap store => wrapped .heap (Store.swap left right store)
  | .mapped store => wrapped .mapped (Store.swap left right store)
  | .chain store => wrapped .chain (Store.swap left right store)
  | .mappedChain store => wrapped .mappedChain (Store.swap left right store)

instance : Store Backend where
  elementSize := elementSize
  size := size
  maxSize := maxSize
  resize := resize
  element := element
  overwrite := overwrite
  swap := swap
  heldBytes := heldBytes

/-- Opens the store that a configuration asks for. -/
def create (kind : BackendKind) (elementSize count : Nat) (system : System := .usual) :
    Except (Failure Store.Error) Backend :=
  match kind with
  | .heap => .heap <$> Flat.create elementSize count (system.mapper 0)
  | .mapped => .mapped <$> Flat.create elementSize count (system.mapper 0)
  | .chain arrayLength => .chain <$> Chain.create elementSize arrayLength count system

/-- The choice that opens such a store, if a configuration offers it. -/
def kind? : Backend → Option BackendKind
  | .heap _ => some .heap
  | .mapped _ => some .mapped
  | .chain store => some (.chain store.arrayLength)
  | .mappedChain _ => none

/-- The sub-array of an element and its index there, in a chain. -/
def locate? (backend : Backend) (index : Nat) : Option (Nat × Nat) :=
  match backend with
  | .heap _ => none
  | .mapped _ => none
  | .chain store => some (store.locate index)
  | .mappedChain store => some (store.locate index)

/-- Whether all memory of the store is mapped, so that the bytes it holds are
exactly those of its regions. -/
def isMapped : Backend → Bool
  | .heap _ => false
  | .mapped _ => true
  | .chain _ => false
  | .mappedChain _ => true

end Backend

end RecordPool
