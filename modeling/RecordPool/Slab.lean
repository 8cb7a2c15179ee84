import RecordPool.Address
import RecordPool.Focus
import RecordPool.IndexSet
import RecordPool.Store.Basic

/-!
# Slabs

A slab hands out the indices of the elements of a store.  An index is live from
the moment it is handed out until it is freed; indices that were handed out at
some time lie below the high-water mark, and those of them that are not live are
on the free list.

A slab that needs room grows its store to twice the number of elements, or to the
maximum where that is less.  Growth moves no element.  Every change of what is
live counts up the version.
-/

namespace RecordPool

/-- What becomes of freed indices. -/
inductive ReusePolicy where
  /-- The index freed last is handed out first. -/
  | reuse
  /-- Freed indices are never handed out again. -/
  | appendOnly
  deriving DecidableEq

/-- The name of a policy. -/
def ReusePolicy.name : ReusePolicy → String
  | .reuse => "Reuse"
  | .appendOnly => "AppendOnly"

/-- A store with the account of the indices handed out. -/
structure Slab (σ : Type) where
  store : σ
  policy : ReusePolicy
  /-- All indices handed out are below this one. -/
  highWater : Nat
  /-- The freed indices, the one freed last in front. -/
  freed : List Nat
  live : IndexSet
  /-- The number of structural changes. -/
  version : Nat

namespace Slab

variable {σ : Type}

/-- A slab over a store, of which nothing is handed out yet. -/
def create (store : σ) (policy : ReusePolicy) : Slab σ :=
  ⟨store, policy, 0, [], {}, 0⟩

/-- Whether an index is handed out and not freed. -/
def isLive (slab : Slab σ) (index : Nat) : Bool :=
  slab.live.contains index

/-- The number of live indices. -/
def liveCount (slab : Slab σ) : Nat :=
  slab.live.count

/-- The number of freed indices. -/
def freeCount (slab : Slab σ) : Nat :=
  slab.freed.length

/-- The live indices in ascending order. -/
def liveIndices (slab : Slab σ) : List Nat :=
  slab.live.toList

/-- The freed indices, in the order of their release. -/
def freeIndices (slab : Slab σ) : List Nat :=
  slab.freed.reverse

/-- The smallest live index not below `start`. -/
def nextLive? (slab : Slab σ) (start : Nat) : Option Nat :=
  slab.live.nextFrom? start

/-- Runs a computation on the store. -/
def onStore {ε α : Type} (action : EStateM ε σ α) : EStateM ε (Slab σ) α :=
  focus (·.store) (fun store slab => { slab with store := store }) action

/-- The slab with an index made live. -/
def markLive (slab : Slab σ) (index : Nat) : Slab σ :=
  { slab with
    live := (slab.live.insert index).2
    version := slab.version + 1 }

variable [Store σ]

/-- The number of elements of the store. -/
def capacity (slab : Slab σ) : Nat :=
  Elements.size slab.store

/-- The number of elements to grow to when `required` are needed: twice as many
as there are, but no more than the maximum. -/
def grownSize (store : σ) (required : Nat) : Nat :=
  let doubled := min (max (Elements.size store) 1 * 2) (Address.limit - 1)
  min (max doubled required) (Store.maxSize store)

/-- Grows the store to have room for `required` elements. -/
def growFor (required : Nat) : EStateM (Failure Store.Error) (Slab σ) Unit := do
  let store := (← get).store
  if Store.maxSize store < required then
    throw (.refused (.capacityExceeded required (Store.maxSize store)))
  else
    onStore (Store.resize (grownSize store required))

/-- Hands out the index at the high-water mark. -/
def append : EStateM (Failure Store.Error) (Slab σ) Nat := do
  let slab ← get
  if slab.highWater = slab.capacity then
    growFor (slab.highWater + 1)
  modify fun grown => { grown.markLive slab.highWater with highWater := slab.highWater + 1 }
  return slab.highWater

/-- Hands out an index: under `reuse` the one freed last if there is one, and
otherwise the one at the high-water mark. -/
def allocate : EStateM (Failure Store.Error) (Slab σ) Nat := do
  let slab ← get
  match slab.policy, slab.freed with
  | .reuse, index :: rest =>
      set { slab.markLive index with freed := rest }
      return index
  | _, _ => append

/-- Takes a live index back. -/
def free (index : Nat) : EStateM Store.Error (Slab σ) Unit := do
  let slab ← get
  if slab.isLive index then
    set { slab with
      live := (slab.live.erase index).2
      freed := index :: slab.freed
      version := slab.version + 1 }
  else
    throw (.notLive index)

/-- Exchanges the contents of two elements below the high-water mark.  What is
live and what is free does not change. -/
def swap (left right : Nat) : EStateM (Failure Store.Error) (Slab σ) Unit := do
  let slab ← get
  if slab.highWater ≤ left then
    throw (.refused (.indexOutOfRange left slab.highWater))
  else if slab.highWater ≤ right then
    throw (.refused (.indexOutOfRange right slab.highWater))
  else
    EStateM.adaptExcept .fault (onStore (Store.swap left right))

/-- Forgets all indices.  The store and its bytes stay. -/
def clear (slab : Slab σ) : Slab σ :=
  { slab with
    highWater := 0
    freed := []
    live := slab.live.clear
    version := slab.version + 1 }

/-- Makes room for a number of elements. -/
def reserve (count : Nat) : EStateM (Failure Store.Error) (Slab σ) Unit := do
  if count ≤ (← get).capacity then
    return ()
  else
    onStore (Store.resize count)

end Slab

end RecordPool
