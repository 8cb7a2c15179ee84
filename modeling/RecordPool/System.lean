import RecordPool.Address

/-!
# The system beneath

Whether a region of memory is mapped, and whether there is room for a queue, is for the
system to say.  A `System` is given by what it answers, and everything that asks it takes
one.  The regions that one store asks for are numbered, and so are the stores that the
parts of a chain are, so that memory may run out and be there again.
-/

namespace RecordPool

/-- What becomes of the requests of one store for regions of memory. -/
structure Mapper where
  /-- Whether a request for a number of bytes is met. -/
  maps : (request bytes : Nat) → Bool
  /-- No region is larger than a block of memory can be. -/
  lt_of_maps : ∀ {request bytes : Nat}, maps request bytes = true → bytes < Address.blockLimit

/-- What the library asks of the system that it runs on. -/
structure System where
  /-- What becomes of the requests of a store, by the number of that store. -/
  mapper : (store : Nat) → Mapper
  /-- Whether there is memory for a queue of a number of places. -/
  queues : (places : Nat) → Bool

namespace System

/-- A system with much memory: it maps every region of some bytes that machines have
addresses for, and makes every queue that fits in a block, at 24 bytes a place. -/
def usual : System where
  mapper _ := {
    maps := fun _ bytes => 0 < bytes && bytes < 1 <<< 60
    lt_of_maps := fun {_ bytes} mapped => by
      simp only [Bool.and_eq_true, decide_eq_true_eq] at mapped
      exact Nat.lt_trans mapped.2 (by decide) }
  queues places := places * 24 < Address.blockLimit

end System

end RecordPool
