import RecordPool.Fault
import RecordPool.Layout.Error
import RecordPool.Proxy
import RecordPool.Store.Error

/-!
# Pool errors

A pool refuses to work on records that are not live, with proxies that are not
its own, and with cursors that its changes have outdated.  Errors of the layout
and of the store are passed on under its name.
-/

namespace RecordPool.Pool

/-- What is wrong with the parameters of a pool. -/
inductive Misfit where
  /-- A chain of sub-arrays of no elements. -/
  | emptyArrays
  /-- A store whose elements are not as long as the records. -/
  | elementSize (ofStore ofRecord : Nat)
  deriving DecidableEq

/-- The text of a misfit. -/
def Misfit.message : Misfit → String
  | .emptyArrays => "elements_per_array must be > 0"
  | .elementSize ofStore ofRecord =>
      s!"backend element size {ofStore} does not match record size {ofRecord}"

/-- Why a pool refuses. -/
inductive Error where
  /-- No live record has the id. -/
  | noSuchElement (id : Nat)
  /-- The proxy was minted by another pool. -/
  | foreignProxy (owner pool : PoolId)
  /-- Records came or went since the cursor was made. -/
  | concurrentModification (expected found : Nat)
  /-- The parameters make no sense. -/
  | invalidConfig (misfit : Misfit)
  /-- The layout does not stand. -/
  | layout (error : Layout.Error)
  /-- The store refuses. -/
  | store (error : Store.Error)
  deriving DecidableEq

namespace Error

/-- The name of the cause of an error. -/
def name : Error → String
  | .noSuchElement .. => "NoSuchElement"
  | .foreignProxy .. => "ForeignProxy"
  | .concurrentModification .. => "ConcurrentModification"
  | .invalidConfig .. => "InvalidConfig"
  | .layout .. => "Layout"
  | .store .. => "Storage"

/-- The text of the error passed on, if one is. -/
def cause? : Error → Option String
  | .layout error => some error.message
  | .store error => error.message
  | _ => none

/-- The text of an error. -/
def message : Error → Option String
  | .noSuchElement id => some s!"no such element: {id}"
  | .foreignProxy owner pool => some s!"proxy belongs to {owner.text}, not {pool.text}"
  | .concurrentModification expected found =>
      some s!"pool modified during iteration (version {expected} -> {found})"
  | .invalidConfig misfit => some s!"invalid pool config: {misfit.message}"
  | .layout error => some s!"layout error: {error.message}"
  | .store error => error.message.map fun text => s!"storage error: {text}"

end Error

/-- The failure of a pool when its store fails. -/
def failureOfStore : Failure Store.Error → Failure Error :=
  Failure.map .store

/-- A proxy handed back because it cannot be released here. -/
structure RejectedProxy where
  proxy : Proxy
  error : Error
  deriving DecidableEq

/-- The text of a rejection. -/
def RejectedProxy.message (rejected : RejectedProxy) : Option String :=
  rejected.error.message.map fun text => s!"proxy release rejected: {text}"

end RecordPool.Pool
