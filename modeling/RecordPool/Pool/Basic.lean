import RecordPool.Layout.Basic
import RecordPool.Listener
import RecordPool.Pool.Config

/-!
# Pools

A pool keeps the records of one layout in a slab.  Beside the records it has its
listeners and what they were told, an initializer that prepares every created
record, and the released proxies that wait for use again.

This file opens pools and reads them.  What changes a pool is in the files beside
it: notification and raw writes, the life of records, proxies, field access and
the movement of points.
-/

namespace RecordPool

/-- Records of one layout over a store. -/
structure Pool (σ : Type) where
  id : PoolId
  layout : Layout
  slab : Slab σ
  /-- The listeners told of notifying writes, in the order of subscription. -/
  changeListeners : List Subscription
  /-- The listeners told of creations and deletions, in the order of subscription. -/
  lifecycleListeners : List Subscription
  /-- The identity of the next subscription, whichever list it goes to. -/
  nextListener : Nat
  /-- What was told to listeners. -/
  journal : Journal
  /-- What is done to every created record, given its id. -/
  initializer : Option (Nat → Edit Unit)
  /-- Whether lookups check that the record is live. -/
  validation : Bool
  /-- The released proxies, the one released first in front. -/
  spares : List Proxy
  /-- The number of released proxies that are kept. -/
  spareLimit : Nat
  /-- The number of proxies minted. -/
  proxiesMinted : Nat
  /-- The number of times that a released proxy was handed out again. -/
  proxiesRecycled : Nat

namespace Pool

variable {σ : Type}

/-! ## Opening -/

/-- A pool over a store whose elements are as long as the records. -/
def ofStore [Store σ] (id : PoolId) (layout : Layout) (store : σ) (config : Config)
    (system : System := .usual) : Except (Failure Error) (Pool σ) := do
  if Elements.elementSize store = layout.recordSize then
    (config.checkSpares system).mapError .fault
    return {
      id := id
      layout := layout
      slab := Slab.create store config.policy
      changeListeners := []
      lifecycleListeners := []
      nextListener := 0
      journal := #[]
      initializer := none
      validation := config.validation
      spares := []
      spareLimit := config.spareLimit
      proxiesMinted := 0
      proxiesRecycled := 0 }
  else
    let misfit := Misfit.elementSize (Elements.elementSize store) layout.recordSize
    throw (.refused (.invalidConfig misfit))

/-- A pool over a store opened for it, whose failures are passed on. -/
def ofOpened [Store σ] (id : PoolId) (layout : Layout)
    (opened : Except (Failure Store.Error) σ) (config : Config) (system : System) :
    Except (Failure Error) (Pool σ) := do
  let store ← opened.mapError failureOfStore
  ofStore id layout store config system

/-- A pool over the store that its configuration asks for. -/
def ofConfig (id : PoolId) (layout : Layout) (config : Config) (system : System := .usual) :
    Except (Failure Error) (Pool Backend) := do
  config.validate.mapError .refused
  ofOpened id layout
    (Backend.create config.storage layout.recordSize config.initialCapacity system) config system

/-- A pool on chained heaps of the given length. -/
def chained (id : PoolId) (layout : Layout) (capacity arrayLength : Nat)
    (system : System := .usual) : Except (Failure Error) (Pool Backend) := do
  let config := Config.chained capacity arrayLength
  config.validate.mapError .refused
  ofOpened id layout
    (Backend.chain <$> Chain.create layout.recordSize arrayLength capacity system) config system

/-! ## Size -/

/-- The number of live records. -/
def liveCount (pool : Pool σ) : Nat :=
  pool.slab.liveCount

/-- Whether no record is live. -/
def isEmpty (pool : Pool σ) : Bool :=
  pool.liveCount = 0

/-- All ids handed out are below this one. -/
def highWater (pool : Pool σ) : Nat :=
  pool.slab.highWater

/-- The number of creations, deletions and clearings so far. -/
def version (pool : Pool σ) : Nat :=
  pool.slab.version

/-- The number of records that there is room for. -/
def capacity [Store σ] (pool : Pool σ) : Nat :=
  pool.slab.capacity

/-- The number of subscriptions. -/
def listenerCount (pool : Pool σ) : Nat :=
  pool.changeListeners.length + pool.lifecycleListeners.length

/-! ## Records -/

/-- Whether a record is live. -/
def isLive (pool : Pool σ) (id : Nat) : Bool :=
  pool.slab.isLive id

/-- The ids of the live records in ascending order. -/
def liveIds (pool : Pool σ) : List Nat :=
  pool.slab.liveIndices

/-- The record at an index, live or not. -/
def record [Store σ] (pool : Pool σ) (index : Nat) : Except Fault Record := do
  let contents ← Elements.element pool.slab.store index
  return ⟨index, contents⟩

/-- The record that a proxy points at.  The index alone counts, whichever pool
minted the proxy. -/
def view [Store σ] (pool : Pool σ) (proxy : Proxy) : Except Fault Record :=
  pool.record proxy.index

/-! ## Proxies at hand -/

/-- Refuses a proxy minted by another pool. -/
def checkOwner (pool : Pool σ) (proxy : Proxy) : Except Error Unit :=
  if proxy.owner = pool.id then .ok () else .error (.foreignProxy proxy.owner pool.id)

/-- Access through a proxy minted by another pool is a misuse. -/
def guardOwner (pool : Pool σ) (proxy : Proxy) : Except Fault Unit :=
  if proxy.owner = pool.id then .ok () else .error .foreignProxy

/-- The id of the record that a proxy of this pool points at. -/
def idOf (pool : Pool σ) (proxy : Proxy) : Except Fault Nat :=
  if proxy.owner = pool.id then .ok proxy.index else .error .foreignIdentity

/-- Points the proxy at hand at a record, which has to be live while validation is on. -/
def aim (pool : Pool σ) (id : Nat) : EStateM Error Proxy Unit := do
  ofExcept (pool.checkOwner (← get))
  if pool.validation && !pool.isLive id then
    throw (.noSuchElement id)
  else
    modify (·.pointAt id)

/-- The proxy pointed at a record, which has to be live while validation is on. -/
def lookUp (pool : Pool σ) (id : Nat) (proxy : Proxy) : Except Error Proxy :=
  match pool.aim id proxy with
  | .ok _ pointed => .ok pointed
  | .error error _ => .error error

/-- Points a proxy of this pool at a record if the record is live, and tells whether it is.
Any other proxy is left as it is. -/
def aimIfLive (pool : Pool σ) (id : Nat) (proxy : Proxy) : Bool × Proxy :=
  if proxy.owner = pool.id ∧ pool.isLive id then (true, proxy.pointAt id) else (false, proxy)

/-- The proxy of this pool pointed at a record if the record is live. -/
def lookUp? (pool : Pool σ) (id : Nat) (proxy : Proxy) : Option Proxy :=
  match pool.aimIfLive id proxy with
  | (true, pointed) => some pointed
  | (false, _) => none

end Pool

end RecordPool
