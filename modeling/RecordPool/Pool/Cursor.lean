import RecordPool.Pool.Basic

/-!
# Detached cursors over live records

A cursor walks the live records in ascending order.  It holds on to nothing of
the pool but the version it was made at, so that the pool can be changed between
steps; a step refuses once a record was created or deleted or the pool cleared.
-/

namespace RecordPool.Pool

/-- A place in a walk over the live records. -/
structure Cursor where
  /-- The smallest id that is still to come. -/
  next : Nat
  /-- The version of the pool that the cursor was made at. -/
  version : Nat
  deriving DecidableEq

namespace Cursor

variable {σ : Type}

/-- A cursor before the first record of a pool. -/
def start (pool : Pool σ) : Cursor :=
  ⟨0, pool.version⟩

/-- Steps to the next live record, if there is one. -/
def advanceId (pool : Pool σ) : EStateM Error Cursor (Option Nat) := fun cursor =>
  if pool.version ≠ cursor.version then
    .error (.concurrentModification cursor.version pool.version) cursor
  else
    match pool.slab.nextLive? cursor.next with
    | none => .ok none cursor
    | some id => .ok (some id) { cursor with next := id + 1 }

/-- Steps to the next live record and points the proxy at it.  The step is taken
even when the proxy is then refused. -/
def advance (pool : Pool σ) (proxy : Proxy) : EStateM Error Cursor (Option Proxy) := do
  match ← advanceId pool with
  | none => return none
  | some id => some <$> ofExcept (pool.lookUp id proxy)

/-- The text of a cursor. -/
def text (cursor : Cursor) : String :=
  s!"LiveCursor \x7b next: {cursor.next}, version: {cursor.version} \x7d"

end Cursor

end RecordPool.Pool
