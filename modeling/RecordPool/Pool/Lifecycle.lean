import RecordPool.Pool.Notification

/-!
# The life of records

Creation hands out an id, runs the initializer on the record, tells the lifecycle
listeners and points the proxy.  Deletion tells the lifecycle listeners and frees
the id.  Clearing forgets all records at once and tells nobody.  Room can be made
in advance, and the contents of two records exchanged.
-/

namespace RecordPool.Pool

variable {σ : Type}

/-- The pool with something else done to every created record.  Without an
initializer created records keep the bytes that they last held. -/
def withInitializer (pool : Pool σ) (initializer : Option (Nat → Edit Unit)) : Pool σ :=
  { pool with initializer := initializer }

/-- The pool with lookups that check, or do not check, that the record is live. -/
def withValidation (pool : Pool σ) (validation : Bool) : Pool σ :=
  { pool with validation := validation }

/-- Forgets all records. -/
def clear (pool : Pool σ) : Pool σ :=
  { pool with slab := pool.slab.clear }

/-- A pool with the proxy that is passed to it to be pointed at a record. -/
structure Hand (σ : Type) where
  pool : Pool σ
  proxy : Proxy

/-- Runs a computation on the pool. -/
def onPool {ε α : Type} (action : EStateM ε (Pool σ) α) : EStateM ε (Hand σ) α :=
  focus (·.pool) (fun pool hand => { hand with pool := pool }) action

/-- The failure of a pool when its store refuses. -/
def refusalOfStore (error : Store.Error) : Failure Error :=
  .refused (.store error)

variable [Store σ]

/-- Runs the initializer on a record. -/
def prepare (index : Nat) : EStateM Fault (Pool σ) Unit := do
  match (← get).initializer with
  | some initializer => editQuietly index (initializer index)
  | none => return ()

/-- Creates a record and points the proxy at hand at it, after all else is done. -/
def createAimed : EStateM (Failure Error) (Hand σ) Unit := do
  let hand ← get
  match hand.pool.checkOwner hand.proxy with
  | .error error => throw (.refused error)
  | .ok () =>
      let index ← onPool (EStateM.adaptExcept failureOfStore (onSlab Slab.allocate))
      onPool (EStateM.adaptExcept .fault (prepare index))
      onPool (EStateM.adaptExcept .fault (announce lifecycleListeners .created index))
      modify fun hand => { hand with proxy := hand.proxy.pointAt index }

/-- Creates a record.  The value is the proxy pointed at it. -/
def create (proxy : Proxy) : EStateM (Failure Error) (Pool σ) Proxy := fun pool =>
  match createAimed ⟨pool, proxy⟩ with
  | .ok _ hand => .ok hand.proxy hand.pool
  | .error failure hand => .error failure hand.pool

/-- Deletes a live record. -/
def deleteId (id : Nat) : EStateM (Failure Error) (Pool σ) Unit := do
  if (← get).isLive id then
    EStateM.adaptExcept .fault (announce lifecycleListeners .beforeDelete id)
    EStateM.adaptExcept refusalOfStore (onSlab (Slab.free id))
  else
    throw (.refused (.noSuchElement id))

/-- Deletes the record that a proxy points at. -/
def delete (proxy : Proxy) : EStateM (Failure Error) (Pool σ) Unit := do
  match (← get).checkOwner proxy with
  | .error error => throw (.refused error)
  | .ok () => deleteId proxy.index

/-- Makes room for a number of records. -/
def reserve (count : Nat) : EStateM (Failure Error) (Pool σ) Unit :=
  EStateM.adaptExcept failureOfStore (onSlab (Slab.reserve count))

/-- Exchanges the contents of two records. -/
def swap (left right : Nat) : EStateM (Failure Error) (Pool σ) Unit :=
  EStateM.adaptExcept failureOfStore (onSlab (Slab.swap left right))

end RecordPool.Pool
