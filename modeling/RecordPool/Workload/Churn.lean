/-!
# Churn

Which of the records `0, 1, …, n - 1` to delete so that about one in so many goes,
spread by a linear congruential step from a seed.  The same seed gives the same
records.
-/

namespace RecordPool.Workload

/-- The spread of an index, in 64-bit arithmetic that wraps around. -/
def spread (seed index : Nat) : UInt64 :=
  UInt64.ofNat seed * 6364136223846793005 + UInt64.ofNat index * 1442695040888963407

/-- Whether an index is among about one in `every`. -/
def isChosen (every seed index : Nat) : Bool :=
  (spread seed index >>> 33).toNat % max every 1 = 0

/-- The chosen ones of the first `count` indices in front of those found above them. -/
def churnedBelow (every seed : Nat) : (count : Nat) → (above : List Nat) → List Nat
  | 0, above => above
  | index + 1, above =>
      churnedBelow every seed index
        (if isChosen every seed index then index :: above else above)

/-- The chosen ones of the first `count` indices, in ascending order. -/
def churned (count every seed : Nat) : List Nat :=
  churnedBelow every seed count []

end RecordPool.Workload
