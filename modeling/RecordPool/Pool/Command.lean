import RecordPool.Pool.Lifecycle
import RecordPool.Pool.Motion
import RecordPool.Pool.Recycling

/-!
# Commands

Everything that changes a pool, and the lookups that point proxies, as data.
`Pool.perform` carries a command out and `Pool.run` a list of them, going on after
the ones that fail: what a failed command changed stays changed.
-/

namespace RecordPool

/-- The writes to fields through accessors. -/
inductive FieldWrite where
  /-- The value of a cell. -/
  | cell {kind : Kind} (notice : Notice) (cell : Cell kind) (value : kind.Carrier)
  /-- The bytes of a cell. -/
  | cellImage {kind : Kind} (cell : Cell kind) (image : Bytes)
  /-- One value of a row. -/
  | element {kind : Kind} (notice : Notice) (row : Row kind) (index : Nat)
      (value : kind.Carrier)
  /-- All values of a row. -/
  | row {kind : Kind} (notice : Notice) (row : Row kind) (values : List kind.Carrier)
  /-- The bytes of a row. -/
  | rowImage {kind : Kind} (row : Row kind) (image : Bytes)
  /-- All coordinates of a point. -/
  | position (notice : Notice) (point : Point) (position : List Binary64)
  /-- One coordinate of a point. -/
  | coordinate (point : Point) (axis : Nat) (value : Binary64)
  /-- A move by a delta. -/
  | move (point : Point) (delta : List Binary64)
      (add : Binary64 → Binary64 → Binary64 := Binary64.add)
  /-- A step along an axis. -/
  | step (point : Point) (direction : Direction) (axis : Nat)
      (add : Binary64 → Binary64 → Binary64 := Binary64.add)

/-- The writes to a bare record, as initializers make them. -/
inductive RecordWrite where
  /-- Zeroes the record. -/
  | zero
  /-- Writes the id of the record at an offset. -/
  | idAt (offset : Nat)
  /-- Writes the value of a cell. -/
  | cell {kind : Kind} (cell : Cell kind) (value : kind.Carrier)
  /-- Writes one value of a row. -/
  | element {kind : Kind} (row : Row kind) (index : Nat) (value : kind.Carrier)

namespace RecordWrite

/-- The edit of a write, on the record of a given id. -/
def edit (id : Nat) : RecordWrite → Edit Unit
  | .zero => Edit.zero
  | .idAt offset => Edit.put .u64 offset (UInt64.ofNat id)
  | .cell location value => location.write value
  | .element row index value => row.write index value

/-- The edit of several writes, in order. -/
def editAll (writes : List RecordWrite) (id : Nat) : Edit Unit :=
  writes.forM (edit id)

end RecordWrite

/-- What can be asked of a pool. -/
inductive Pool.Command where
  | create (proxy : Proxy)
  | delete (proxy : Proxy)
  | deleteId (id : Nat)
  | lookUp (id : Nat) (proxy : Proxy)
  | lookUpIfLive (id : Nat) (proxy : Proxy)
  | swap (left right : Nat)
  | reserve (count : Nat)
  | clear
  | setInitializer (initializer : Option (Nat → Edit Unit))
  | setValidation (validation : Bool)
  | write (write : FieldWrite) (proxy : Proxy)
  | edit (notice : Notice) (index : Nat) (edit : Edit Unit)
  | notify (index : Nat)
  | subscribe (topic : Topic) (listener : Listener)
  | unsubscribe (id : ListenerId)
  | mint
  | acquire
  | release (proxy : Proxy)

/-- What a pool answers to a command that does not fail. -/
inductive Pool.Reply where
  | done
  | proxy (proxy : Proxy)
  | found (proxy : Option Proxy)
  | flag (value : Bool)
  | subscribed (id : ListenerId)
  | rejected (proxy : Pool.RejectedProxy)

namespace Pool

variable {σ : Type} [Store σ]

/-- Carries out a write to a field. -/
def writeField (proxy : Proxy) : FieldWrite → EStateM Fault (Pool σ) Unit
  | .cell notice location value => location.set notice proxy value
  | .cellImage location image => location.setImage proxy image
  | .element notice row index value => row.set notice proxy index value
  | .row notice row values => row.setAll notice proxy values
  | .rowImage row image => row.setImage proxy image
  | .position notice point position => point.setPosition notice proxy position
  | .coordinate point axis value => point.setCoordinate proxy axis value
  | .move point delta add => point.translate add proxy delta
  | .step point direction axis add => point.stepAlong add direction proxy axis

/-- A change that cannot fail. -/
def change (update : Pool σ → Reply × Pool σ) : EStateM (Failure Error) (Pool σ) Reply :=
  fun pool =>
    let (reply, changed) := update pool
    .ok reply changed

/-- A computation that can only end in a fault, as one that can fail. -/
def faultable (action : EStateM Fault (Pool σ) Unit) :
    EStateM (Failure Error) (Pool σ) Reply := do
  EStateM.adaptExcept .fault action
  return .done

/-- Carries out a command. -/
def perform : Command → EStateM (Failure Error) (Pool σ) Reply
  | .create proxy => .proxy <$> create proxy
  | .delete proxy => do
      delete proxy
      return .done
  | .deleteId id => do
      deleteId id
      return .done
  | .lookUp id proxy => do
      match (← get).lookUp id proxy with
      | .ok pointed => return .proxy pointed
      | .error error => throw (.refused error)
  | .lookUpIfLive id proxy => do
      return .found ((← get).lookUp? id proxy)
  | .swap left right => do
      swap left right
      return .done
  | .reserve count => do
      reserve count
      return .done
  | .clear => change fun pool => (.done, pool.clear)
  | .setInitializer initializer => change fun pool => (.done, pool.withInitializer initializer)
  | .setValidation validation => change fun pool => (.done, pool.withValidation validation)
  | .write write proxy => faultable (writeField proxy write)
  | .edit notice index edit => faultable (Pool.edit notice index edit)
  | .notify index => faultable do
      tellBefore index
      tellAfter index
  | .subscribe topic listener => change fun pool =>
      let (id, changed) := pool.subscribe topic listener
      (.subscribed id, changed)
  | .unsubscribe id => change fun pool =>
      let (found, changed) := pool.unsubscribe id
      (.flag found, changed)
  | .mint => change fun pool =>
      let (proxy, changed) := pool.mint
      (.proxy proxy, changed)
  | .acquire => change fun pool =>
      let (proxy, changed) := pool.acquire
      (.proxy proxy, changed)
  | .release proxy => change fun pool =>
      match pool.release proxy with
      | .ok changed => (.done, changed)
      | .error rejected => (.rejected rejected, pool)

/-- The answer to a command and the pool after it. -/
abbrev Answer := Except (Failure Error) Reply

/-- Carries out a command whatever its outcome. -/
def step (pool : Pool σ) (command : Command) : Answer × Pool σ :=
  match perform command pool with
  | .ok reply changed => (.ok reply, changed)
  | .error failure changed => (.error failure, changed)

/-- Carries out commands in order. -/
def run (pool : Pool σ) : List Command → List Answer × Pool σ
  | [] => ([], pool)
  | command :: rest =>
      let (answer, changed) := pool.step command
      let (answers, final) := changed.run rest
      (answer :: answers, final)

end Pool

end RecordPool
