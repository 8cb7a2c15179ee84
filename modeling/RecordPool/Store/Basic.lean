import RecordPool.Store.Elements
import RecordPool.Store.Error
import RecordPool.System

/-!
# Stores

A store is an array of elements that grows on request up to a maximum and never
shrinks.  New elements are zero.
-/

namespace RecordPool

/-- A growable array of equal-sized elements. -/
class Store (σ : Type) extends Elements σ where
  /-- The number of elements that the store can grow to. -/
  maxSize : σ → Nat
  /-- Grows the store to a number of elements.  A smaller number changes nothing. -/
  resize : Nat → EStateM (Failure Store.Error) σ Unit
  /-- Exchanges two elements.  A store may know a better way than a scratch copy. -/
  swap : Nat → Nat → EStateM Fault σ Unit := Elements.swapByCopy
  /-- The bytes that the store holds for its elements. -/
  heldBytes : σ → Nat

/-- A store that a chain can open more of. -/
class SubStore (σ : Type) extends Store σ where
  /-- Opens a store of elements of a size, as many of them as asked for.  The
  number of the attempt tells successive requests apart, so that a supply that
  runs out now and then is one as well. -/
  allocate : (system : System) → (attempt elementSize count : Nat) →
    Except (Failure Store.Error) σ

/-- The bytes that one array may have unless it is opened with another bound. -/
def Store.defaultMaxBytes : Nat := 0x7fffffff

end RecordPool
