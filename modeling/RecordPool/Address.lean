import RecordPool.Fault

/-!
# Byte positions

Positions, lengths and counts are natural numbers; the machine words that hold
them are bounded, and so are the blocks of memory that the words point into.
`Address.check` and `Address.checkBlock` mark the places where a position that no
longer fits, or a block that is too large, is noticed.
-/

namespace RecordPool

namespace Address

/-- Byte positions, sizes and counts are below this bound. -/
def limit : Nat := UInt64.size

/-- A block of memory has fewer bytes than this: positions inside a block can be
subtracted from one another with a sign. -/
def blockLimit : Nat := 1 <<< 63

/-- A position, if it fits in a machine word. -/
def check (position : Nat) : Except Fault Nat :=
  if position < limit then .ok position else .error .addressOverflow

theorem check_eq_ok_iff {position result : Nat} :
    check position = .ok result ↔ position < limit ∧ result = position := by
  unfold check
  split
  case isTrue fits => simp [fits, eq_comm]
  case isFalse overflows => simp [overflows]

theorem check_of_lt {position : Nat} (fits : position < limit) :
    check position = .ok position :=
  check_eq_ok_iff.mpr ⟨fits, rfl⟩

/-- Notices a block of memory that is too large. -/
def checkBlock (bytes : Nat) : Except Fault Unit :=
  if bytes < blockLimit then .ok () else .error .blockTooLarge

end Address

/-- A run of bytes: where it starts and how many there are. -/
structure Span where
  start : Nat
  count : Nat
  deriving DecidableEq

namespace Span

/-- The position after the last byte. -/
def stop (span : Span) : Nat :=
  span.start + span.count

/-- The run of `count` bytes from `start`, if its end is a position. -/
def check (start count : Nat) : Except Fault Span := do
  discard <| Address.check (start + count)
  return ⟨start, count⟩

/-- A run inside another one, given by its place there. -/
def part (outer inner : Span) : Except Fault Span :=
  if inner.stop ≤ outer.count then
    .ok ⟨outer.start + inner.start, inner.count⟩
  else
    .error .byteRange

/-- The two sides of a place in a run. -/
def splitAt (span : Span) (place : Nat) : Except Fault (Span × Span) :=
  if place ≤ span.count then
    .ok (⟨span.start, place⟩, ⟨span.start + place, span.count - place⟩)
  else
    .error .byteRange

theorem part_of_le {outer inner : Span} (inside : inner.stop ≤ outer.count) :
    outer.part inner = .ok ⟨outer.start + inner.start, inner.count⟩ :=
  if_pos inside

theorem splitAt_of_le {span : Span} {place : Nat} (inside : place ≤ span.count) :
    span.splitAt place = .ok (⟨span.start, place⟩, ⟨span.start + place, span.count - place⟩) :=
  if_pos inside

end Span

end RecordPool
