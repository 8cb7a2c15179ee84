import RecordPool.Pool.Error
import RecordPool.Slab
import RecordPool.Store.Backend

/-!
# Pool configurations

The choices that are made when a pool is opened.
-/

namespace RecordPool.Pool

/-- The choices of a pool. -/
structure Config where
  /-- The number of records to make room for at once. -/
  initialCapacity : Nat := 16
  /-- The kind of store. -/
  storage : BackendKind := .heap
  /-- What becomes of freed indices. -/
  policy : ReusePolicy := .reuse
  /-- Whether lookups check that the record is live. -/
  validation : Bool := true
  /-- How many released proxies are kept for use again. -/
  spareLimit : Nat := 16
  deriving DecidableEq

namespace Config

/-- The configuration of a pool on chained heaps. -/
def chained (initialCapacity arrayLength : Nat) : Config :=
  { initialCapacity := initialCapacity, storage := .chain arrayLength }

/-- Notices a queue of released proxies that there is no memory for: all its places are
made when the pool is opened. -/
def checkSpares (config : Config) (system : System) : Except Fault Unit :=
  if system.queues config.spareLimit then .ok () else .error .blockTooLarge

/-- Refuses a chain of sub-arrays of no elements. -/
def validate (config : Config) : Except Error Unit :=
  if config.storage = .chain 0 then .error (.invalidConfig .emptyArrays) else .ok ()

end Config

end RecordPool.Pool
