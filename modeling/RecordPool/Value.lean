import RecordPool.Binary
import RecordPool.Bytes
import RecordPool.Kind

/-!
# Values and their byte images

`Kind.Carrier` is the type of the values of a kind.  A value is stored as the
little-endian image of its bits: the two's complement of an integer, the IEEE
754 pattern of a float, and one or zero for a truth value.  Reading back is
exact; a truth value is read as true from every byte that is not zero.
-/

namespace RecordPool

namespace Kind

/-- The values of a kind. -/
abbrev Carrier : Kind → Type
  | .bool => Bool
  | .i8 => Int8
  | .u8 => UInt8
  | .i16 => Int16
  | .u16 => UInt16
  | .i32 => Int32
  | .u32 => UInt32
  | .i64 => Int64
  | .u64 => UInt64
  | .f32 => Binary32
  | .f64 => Binary64

/-- The bits of a value, as a number. -/
def toBits : (kind : Kind) → kind.Carrier → Nat
  | .bool, value => value.toNat
  | .i8, value => value.toUInt8.toNat
  | .u8, value => value.toNat
  | .i16, value => value.toUInt16.toNat
  | .u16, value => value.toNat
  | .i32, value => value.toUInt32.toNat
  | .u32, value => value.toNat
  | .i64, value => value.toUInt64.toNat
  | .u64, value => value.toNat
  | .f32, value => value.bits.toNat
  | .f64, value => value.bits.toNat

/-- The value of given bits. -/
def ofBits : (kind : Kind) → Nat → kind.Carrier
  | .bool, bits => bits != 0
  | .i8, bits => (UInt8.ofNat bits).toInt8
  | .u8, bits => UInt8.ofNat bits
  | .i16, bits => (UInt16.ofNat bits).toInt16
  | .u16, bits => UInt16.ofNat bits
  | .i32, bits => (UInt32.ofNat bits).toInt32
  | .u32, bits => UInt32.ofNat bits
  | .i64, bits => (UInt64.ofNat bits).toInt64
  | .u64, bits => UInt64.ofNat bits
  | .f32, bits => ⟨UInt32.ofNat bits⟩
  | .f64, bits => ⟨UInt64.ofNat bits⟩

/-- The fault of bytes that are not as many as the kind is wide. -/
def widthFault : Kind → Fault
  | .bool => .boolWidth
  | _ => .byteCount

/-- The byte image of a value. -/
def encode (kind : Kind) (value : kind.Carrier) : Bytes :=
  littleEndian kind.size (kind.toBits value)

/-- Writes the image of a value over a buffer, which must be as long as the kind is
wide. -/
def overwrite (kind : Kind) (value : kind.Carrier) : EStateM Fault Bytes Unit := do
  let buffer ← get
  if buffer.length = kind.size then
    overwriteFrom 0 (kind.encode value)
  else
    throw kind.widthFault

/-- A buffer with the image of a value written over it. -/
def encodeInto (kind : Kind) (value : kind.Carrier) (buffer : Bytes) : Except Fault Bytes :=
  match kind.overwrite value buffer with
  | .ok _ written => .ok written
  | .error fault _ => .error fault

/-- The value of a byte image, which must be as long as the kind is wide. -/
def decode (kind : Kind) (image : Bytes) : Except Fault kind.Carrier :=
  if image.length = kind.size then
    .ok (kind.ofBits (ofLittleEndian image))
  else
    .error kind.widthFault

@[simp]
theorem length_encode (kind : Kind) (value : kind.Carrier) :
    (kind.encode value).length = kind.size :=
  length_littleEndian _ _

/-- The images of several values, one after another. -/
def encodeAll (kind : Kind) (values : List kind.Carrier) : Bytes :=
  values.flatMap kind.encode

/-- The values of `count` images that follow one another. -/
def decodeAll (kind : Kind) : (count : Nat) → Bytes → Except Fault (List kind.Carrier)
  | 0, _ => .ok []
  | count + 1, images => do
      let value ← kind.decode (images.take kind.size)
      let values ← kind.decodeAll count (images.drop kind.size)
      return value :: values

@[simp]
theorem length_encodeAll (kind : Kind) (values : List kind.Carrier) :
    (kind.encodeAll values).length = values.length * kind.size := by
  induction values with
  | nil => simp [encodeAll]
  | cons value values ih =>
      have step : kind.encodeAll (value :: values) =
          kind.encode value ++ kind.encodeAll values := rfl
      rw [step, List.length_append, ih, length_encode, List.length_cons, Nat.succ_mul]
      omega

end Kind

end RecordPool
