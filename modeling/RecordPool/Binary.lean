/-!
# Floating-point values as bit patterns

A stored float is its IEEE 754 bit pattern, so that copying one keeps the
payload of a NaN and the sign of a zero.  Arithmetic goes through the machine's
double-precision operations.  Which NaN they give is not settled; here, as on common
machines, a NaN operand passes through made quiet, the first operand winning over the
second, and an operation that is invalid on numbers gives the default NaN.  The moves of
points therefore take their addition as a parameter.
-/

namespace RecordPool

/-- A single-precision float, as its bit pattern. -/
structure Binary32 where
  bits : UInt32
  deriving DecidableEq

/-- A double-precision float, as its bit pattern. -/
structure Binary64 where
  bits : UInt64
  deriving DecidableEq

namespace Binary32

/-- The number one. -/
def one : Binary32 := ⟨0x3f800000⟩

end Binary32

namespace Binary64

/-- Positive zero. -/
def zero : Binary64 := ⟨0⟩

/-- Negative zero, the neutral element of a sum. -/
def negativeZero : Binary64 := ⟨0x8000000000000000⟩

/-- The number one. -/
def one : Binary64 := ⟨0x3ff0000000000000⟩

/-- The number minus one. -/
def minusOne : Binary64 := ⟨0xbff0000000000000⟩

/-- The NaN of an invalid operation on numbers. -/
def invalid : Binary64 := ⟨0xfff8000000000000⟩

/-- A pattern is a NaN when its exponent is full and its fraction is not zero. -/
def isNaN (value : Binary64) : Bool :=
  0x7ff0000000000000 < value.bits &&& 0x7fffffffffffffff

/-- A NaN with its quiet bit set. -/
def quiet (value : Binary64) : Binary64 :=
  ⟨value.bits ||| 0x0008000000000000⟩

/-- The machine float of a pattern. -/
def toFloat (value : Binary64) : Float :=
  Float.ofBits value.bits

/-- The pattern of a machine float. -/
def ofFloat (value : Float) : Binary64 :=
  if value.isNaN then invalid else ⟨value.toBits⟩

/-- A machine operation on patterns. -/
def lift (operation : Float → Float → Float) (left right : Binary64) : Binary64 :=
  if left.isNaN then left.quiet
  else if right.isNaN then right.quiet
  else ofFloat (operation left.toFloat right.toFloat)

/-- The sum. -/
def add : Binary64 → Binary64 → Binary64 :=
  lift (· + ·)

/-- The difference. -/
def sub : Binary64 → Binary64 → Binary64 :=
  lift (· - ·)

/-- The product. -/
def mul : Binary64 → Binary64 → Binary64 :=
  lift (· * ·)

/-- The quotient. -/
def div : Binary64 → Binary64 → Binary64 :=
  lift (· / ·)

/-- The float nearest to a natural number. -/
def ofNat (n : Nat) : Binary64 :=
  ofFloat (Float.ofNat n)

instance : Add Binary64 := ⟨add⟩
instance : Sub Binary64 := ⟨sub⟩
instance : Mul Binary64 := ⟨mul⟩
instance : Div Binary64 := ⟨div⟩

end Binary64

end RecordPool
