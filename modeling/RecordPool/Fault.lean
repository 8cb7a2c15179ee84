/-!
# Faults

A fault is a misuse of the library that its caller could have avoided: an
element that is not there, bytes outside their record, a proxy used with a
pool that did not mint it.  It is kept apart from the refusals of an operation
(`Store.Error`, `Pool.Error`), which callers are expected to handle.

Faults that concern the library's own notions carry a text; those that concern
plain byte ranges, machine arithmetic and memory carry none.
-/

namespace RecordPool

/-- The ways in which a call can be a misuse. -/
inductive Fault where
  /-- Element `index` of a store that holds `size` elements. -/
  | elementOutOfBounds (index size : Nat)
  /-- Value `index` of a row that has `count` values. -/
  | rowIndexOutOfBounds (index count : Nat)
  /-- A truth value written to, or read from, other than one byte. -/
  | boolWidth
  /-- A destination whose length is not that of the row read into it. -/
  | destinationLength
  /-- A source whose length is not that of the row written from it. -/
  | sourceLength
  /-- A delta whose length is not the dimension of the point moved. -/
  | deltaDimension
  /-- A proxy used for access to a pool that did not mint it. -/
  | foreignProxy
  /-- The record id asked of a proxy minted by another pool. -/
  | foreignIdentity
  /-- Bytes outside their record. -/
  | byteRange
  /-- A run of bytes of the wrong length. -/
  | byteCount
  /-- A byte position that does not fit in a machine word. -/
  | addressOverflow
  /-- A block of memory of more bytes than one can have. -/
  | blockTooLarge
  deriving DecidableEq

/-- The text of a fault, where it has one. -/
def Fault.message : Fault → Option String
  | .elementOutOfBounds index size =>
      some s!"element {index} out of bounds (len {size})"
  | .rowIndexOutOfBounds index count =>
      some s!"array index {index} out of bounds (len {count})"
  | .boolWidth => some "bool is encoded in one byte"
  | .destinationLength => some "destination length mismatch"
  | .sourceLength => some "source length mismatch"
  | .deltaDimension => some "delta dimension mismatch"
  | .foreignProxy => some "proxy used with a pool that did not create it"
  | .foreignIdentity => none
  | .byteRange => none
  | .byteCount => none
  | .addressOverflow => none
  | .blockTooLarge => none

/-- How a call ends when it does not succeed: it refuses with an error of its
own, or it was a misuse. -/
inductive Failure (ε : Type) where
  | refused (error : ε)
  | fault (fault : Fault)
  deriving DecidableEq

/-- The failure of a call that passes on the errors of another. -/
def Failure.map {ε ε' : Type} (wrap : ε → ε') : Failure ε → Failure ε'
  | .refused error => .refused (wrap error)
  | .fault cause => .fault cause

end RecordPool
