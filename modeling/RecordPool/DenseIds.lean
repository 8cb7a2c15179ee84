import RecordPool.Pool.Basic

/-!
# Dense numbering of records

The ids of live records have holes wherever records were freed.  A `DenseIds`
numbers records `0, 1, 2, …` in the order in which their ids first come up, and
finds the number of an id and the id of a number.
-/

namespace RecordPool

/-- Distinct ids in the order of their numbers. -/
structure DenseIds where
  ids : Array Nat

namespace DenseIds

/-- The numbering with one more id, unless it has a number already. -/
def insert (numbering : DenseIds) (id : Nat) : DenseIds :=
  if numbering.ids.contains id then numbering else ⟨numbering.ids.push id⟩

/-- Numbers the distinct ids of a list in the order of their first occurrence. -/
def ofIds (ids : List Nat) : DenseIds :=
  ids.foldl insert ⟨#[]⟩

/-- Numbers the live records of a pool. -/
def ofPool {σ : Type} (pool : Pool σ) : DenseIds :=
  ofIds pool.liveIds

/-- The number of an id. -/
def number? (numbering : DenseIds) (id : Nat) : Option Nat :=
  numbering.ids.idxOf? id

/-- The id of a number. -/
def id? (numbering : DenseIds) (number : Nat) : Option Nat :=
  numbering.ids[number]?

/-- How many ids are numbered. -/
def count (numbering : DenseIds) : Nat :=
  numbering.ids.size

/-- Whether nothing is numbered. -/
def isEmpty (numbering : DenseIds) : Bool :=
  numbering.count = 0

/-- The numbers with their ids, in order. -/
def toList (numbering : DenseIds) : List (Nat × Nat) :=
  numbering.ids.toList.zipIdx.map fun entry => (entry.2, entry.1)

end DenseIds

end RecordPool
