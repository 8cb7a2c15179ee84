/-!
# Store errors

A store refuses to grow past its maximum, to free what is not allocated, to
exchange elements that were never handed out, and to be opened with parameters
that make no sense.
-/

namespace RecordPool.Store

/-- What is wrong with the parameters of a store. -/
inductive Misfit where
  /-- Elements of no bytes. -/
  | emptyElements
  /-- Sub-arrays of no elements. -/
  | emptyArrays
  /-- A chain that may have no sub-arrays. -/
  | noArrays
  /-- Sub-arrays of more elements than one can hold. -/
  | arraysTooLong (length maximum : Nat)
  deriving DecidableEq

/-- The text of a misfit. -/
def Misfit.message : Misfit → String
  | .emptyElements => "element_size must be > 0"
  | .emptyArrays => "elements_per_array must be > 0"
  | .noArrays => "max_arrays must be > 0"
  | .arraysTooLong length maximum =>
      s!"elements_per_array ({length}) exceeds one sub-array's maximum ({maximum})"

/-- Why a store refuses. -/
inductive Error where
  /-- More elements were asked for than the store can ever hold. -/
  | capacityExceeded (requested maximum : Nat)
  /-- The element to free is not allocated. -/
  | notLive (index : Nat)
  /-- The element to exchange is not below the high-water mark. -/
  | indexOutOfRange (index size : Nat)
  /-- The system gave no memory. -/
  | mapFailed
  /-- The parameters make no sense. -/
  | invalidConfig (misfit : Misfit)
  deriving DecidableEq

/-- The name of the cause of an error. -/
def Error.name : Error → String
  | .capacityExceeded .. => "CapacityExceeded"
  | .notLive .. => "NotLive"
  | .indexOutOfRange .. => "IndexOutOfRange"
  | .mapFailed => "MapFailed"
  | .invalidConfig .. => "InvalidConfig"

/-- The text of an error.  That of a failed mapping is the system's to give. -/
def Error.message : Error → Option String
  | .capacityExceeded requested maximum =>
      some s!"storage capacity exceeded: requested {requested} elements, maximum {maximum}"
  | .notLive index => some s!"element {index} is not allocated"
  | .indexOutOfRange index size =>
      some s!"element {index} out of range (high-water mark {size})"
  | .mapFailed => none
  | .invalidConfig misfit => some s!"invalid storage config: {misfit.message}"

end RecordPool.Store
