import RecordPool.Pool.Access

/-!
# Points through proxies

A point is read and written as the row of its coordinates.  It can be moved by a
delta, or one step along an axis; each move is one change however many axes it
touches.  What the sum of two coordinates is, is a parameter of the moves: machines
differ in the pattern of a sum that is not a number.
-/

namespace RecordPool

/-- The two ways along an axis. -/
inductive Direction where
  | forward
  | backward
  deriving DecidableEq

/-- What a step adds to a coordinate. -/
def Direction.step : Direction → Binary64
  | .forward => .one
  | .backward => .minusOne

namespace Point

variable {σ : Type} [Store σ]

/-- The coordinates. -/
def position (point : Point) (pool : Pool σ) (proxy : Proxy) :
    Except Fault (List Binary64) :=
  point.coordinates.valuesFor pool proxy point.dimension

/-- The coordinate on an axis. -/
def coordinate (point : Point) (pool : Pool σ) (proxy : Proxy) (axis : Nat) :
    Except Fault Binary64 :=
  point.coordinates.get pool proxy axis

/-- Writes all coordinates. -/
def setPosition (point : Point) (notice : Notice) (proxy : Proxy)
    (position : List Binary64) : EStateM Fault (Pool σ) Unit :=
  point.coordinates.setAll notice proxy position

/-- Writes the coordinate on an axis. -/
def setCoordinate (point : Point) (proxy : Proxy) (axis : Nat) (value : Binary64) :
    EStateM Fault (Pool σ) Unit :=
  point.coordinates.set .told proxy axis value

/-- Adds a delta to the coordinates, in place. -/
def translate (point : Point) (add : Binary64 → Binary64 → Binary64) (proxy : Proxy)
    (delta : List Binary64) : EStateM Fault (Pool σ) Unit := do
  ofExcept ((← get).guardOwner proxy)
  if delta.length = point.dimension then
    Pool.editNotifying proxy.index (point.shift add delta)
  else
    throw .deltaDimension

/-- Moves the point by one along an axis. -/
def stepAlong (point : Point) (add : Binary64 → Binary64 → Binary64) (direction : Direction)
    (proxy : Proxy) (axis : Nat) : EStateM Fault (Pool σ) Unit := do
  let current : Binary64 ← ofExcept (point.coordinate (← get) proxy axis)
  point.setCoordinate proxy axis (add current direction.step)

/-- Adds to a sum the squares of the differences between the points of two records on
`count` axes from `axis` on.  The walk ends at the first axis that is not there. -/
def addSquares (point : Point) (pool : Pool σ) (left right : Proxy) (sum : Binary64)
    (axis : Nat) : (count : Nat) → Except Fault Binary64
  | 0 => .ok sum
  | count + 1 => do
      let difference :=
        (← point.coordinate pool left axis) - (← point.coordinate pool right axis)
      point.addSquares pool left right (sum + difference * difference) (axis + 1) count

/-- The square of the distance between the points of two records, summed from the
first axis on. -/
def squaredDistance (point : Point) (pool : Pool σ) (left right : Proxy) :
    Except Fault Binary64 :=
  point.addSquares pool left right .negativeZero 0 point.dimension

end Point

end RecordPool
