import RecordPool.Fault

/-!
# Byte strings

Runs of bytes are lists.  `littleEndian` and `ofLittleEndian` relate numbers to their
images, least significant byte first.
-/

namespace RecordPool

/-- A string of bytes. -/
abbrev Bytes := List UInt8

/-- The `width` bytes of a number, least significant first. -/
def littleEndian : (width : Nat) → Nat → Bytes
  | 0, _ => []
  | width + 1, n => UInt8.ofNat n :: littleEndian width (n / 256)

/-- The number whose little-endian image the bytes are. -/
def ofLittleEndian : Bytes → Nat
  | [] => 0
  | byte :: rest => byte.toNat + 256 * ofLittleEndian rest

/-- Writes bytes over those of a buffer, one after another from an index on. -/
def overwriteFrom (index : Nat) : Bytes → EStateM Fault Bytes Unit
  | [] => pure ()
  | byte :: rest => do
      modify (·.set index byte)
      overwriteFrom (index + 1) rest

@[simp]
theorem length_littleEndian (width n : Nat) : (littleEndian width n).length = width := by
  induction width generalizing n with
  | zero => rfl
  | succ width ih => simp [littleEndian, ih]

/-- Bytes are the image of the number they denote. -/
theorem littleEndian_ofLittleEndian (bytes : Bytes) :
    littleEndian bytes.length (ofLittleEndian bytes) = bytes := by
  induction bytes with
  | nil => rfl
  | cons byte rest ih =>
      have bound := byte.toNat_lt
      have head : UInt8.ofNat (byte.toNat + 256 * ofLittleEndian rest) = byte := by
        apply UInt8.toNat_inj.mp
        simp
      have tail : (byte.toNat + 256 * ofLittleEndian rest) / 256 = ofLittleEndian rest := by
        omega
      simp only [List.length_cons, littleEndian, ofLittleEndian, head, tail, ih]

end RecordPool
