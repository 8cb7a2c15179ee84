import RecordPool.Pool.Basic

/-!
# Statistics of a pool
-/

namespace RecordPool.Pool

/-- The figures of a pool at one moment. -/
structure Stats where
  live : Nat
  free : Nat
  highWater : Nat
  capacity : Nat
  recordSize : Nat
  heldBytes : Nat
  proxiesMinted : Nat
  proxiesRecycled : Nat
  listeners : Nat
  deriving DecidableEq

/-- The share of the capacity that is live, zero without capacity. -/
def Stats.occupancy (stats : Stats) : Binary64 :=
  if stats.capacity = 0 then
    .zero
  else
    .ofNat stats.live / .ofNat stats.capacity

variable {σ : Type} [Store σ]

/-- The bytes that the store holds for the records. -/
def heldBytes (pool : Pool σ) : Nat :=
  Store.heldBytes pool.slab.store

/-- The figures of a pool. -/
def stats (pool : Pool σ) : Stats where
  live := pool.liveCount
  free := pool.slab.freeCount
  highWater := pool.highWater
  capacity := pool.capacity
  recordSize := pool.layout.recordSize
  heldBytes := pool.heldBytes
  proxiesMinted := pool.proxiesMinted
  proxiesRecycled := pool.proxiesRecycled
  listeners := pool.listenerCount

/-- The text of a pool. -/
def text (pool : Pool σ) : String :=
  s!"Pool \x7b id: PoolId({pool.id.value}), record_size: {pool.layout.recordSize}, " ++
    s!"live: {pool.liveCount}, high_water_mark: {pool.highWater}, " ++
    s!"capacity: {pool.capacity}, validation: {pool.validation}, .. \x7d"

end RecordPool.Pool
