import RecordPool.Proofs.Computation
import RecordPool.Value
import Mathlib.Algebra.Group.Nat.Defs

/-!
# Values survive their byte images

A value is decoded from its image bit for bit, whatever its kind: the bits of a value fit
in as many bytes as the kind is wide, and no two values have the same bits.
-/

namespace RecordPool

/-- A number that fits is the one its image denotes. -/
theorem ofLittleEndian_littleEndian {width n : Nat} (fits : n < 256 ^ width) :
    ofLittleEndian (littleEndian width n) = n := by
  induction width generalizing n with
  | zero =>
      rw [pow_zero] at fits
      simp only [littleEndian, ofLittleEndian]
      omega
  | succ width ih =>
      have quotient : n / 256 < 256 ^ width :=
        Nat.div_lt_of_lt_mul (by rwa [pow_succ'] at fits)
      have byte : (UInt8.ofNat n).toNat = n % 256 := by simp
      rw [littleEndian, ofLittleEndian, ih quotient, byte]
      omega

namespace Kind

/-- The bits of a value fit in the width of its kind. -/
theorem toBits_lt (kind : Kind) (value : kind.Carrier) :
    kind.toBits value < 256 ^ kind.size := by
  cases kind with
  | bool => cases value <;> decide
  | i8 => exact (Int8.toUInt8 value).toNat_lt
  | u8 => exact UInt8.toNat_lt value
  | i16 => exact (Int16.toUInt16 value).toNat_lt
  | u16 => exact UInt16.toNat_lt value
  | i32 => exact (Int32.toUInt32 value).toNat_lt
  | u32 => exact UInt32.toNat_lt value
  | i64 => exact (Int64.toUInt64 value).toNat_lt
  | u64 => exact UInt64.toNat_lt value
  | f32 => exact (Binary32.bits value).toNat_lt
  | f64 => exact (Binary64.bits value).toNat_lt

/-- A value is the one of its bits. -/
theorem ofBits_toBits (kind : Kind) (value : kind.Carrier) :
    kind.ofBits (kind.toBits value) = value := by
  cases kind with
  | bool => cases value <;> rfl
  | i8 | i16 | i32 | i64 => simp [toBits, ofBits]
  | u8 | u16 | u32 | u64 => simp [toBits, ofBits]
  | f32 | f64 => simp [toBits, ofBits]

/-- A value is read back from its image. -/
theorem decode_encode (kind : Kind) (value : kind.Carrier) :
    kind.decode (kind.encode value) = .ok value := by
  rw [decode, if_pos (kind.length_encode value), encode,
    ofLittleEndian_littleEndian (kind.toBits_lt value), ofBits_toBits]

/-- Bytes as many as a kind is wide are a value. -/
theorem decode_of_length (kind : Kind) {image : Bytes} (length : image.length = kind.size) :
    ∃ value, kind.decode image = .ok value :=
  ⟨_, if_pos length⟩

/-- As many bytes as several values take are values. -/
theorem decodeAll_of_length (kind : Kind) {count : Nat} {images : Bytes}
    (length : images.length = count * kind.size) :
    ∃ values, kind.decodeAll count images = .ok values := by
  induction count generalizing images with
  | zero => exact ⟨[], rfl⟩
  | succ count ih =>
      rw [Nat.succ_mul] at length
      have one : (images.take kind.size).length = kind.size := by
        rw [List.length_take]
        omega
      have others : (images.drop kind.size).length = count * kind.size := by
        rw [List.length_drop]
        omega
      obtain ⟨value, first⟩ := kind.decode_of_length one
      obtain ⟨values, rest⟩ := ih others
      refine ⟨value :: values, ?_⟩
      simp only [Kind.decodeAll, first, rest, except_ok_bind]
      rfl

/-- Of several values the first is decoded first. -/
theorem decodeAll_succ_eq_ok_iff {kind : Kind} {count : Nat} {images : Bytes}
    {values : List kind.Carrier} :
    kind.decodeAll (count + 1) images = .ok values ↔
      ∃ value others, values = value :: others ∧
        kind.decode (images.take kind.size) = .ok value ∧
        kind.decodeAll count (images.drop kind.size) = .ok others := by
  rw [decodeAll, except_bind_eq_ok_iff]
  constructor
  · rintro ⟨value, first, rest⟩
    rcases except_bind_eq_ok_iff.mp rest with ⟨others, later, made⟩
    cases made
    exact ⟨value, others, rfl, first, later⟩
  · rintro ⟨value, others, rfl, first, later⟩
    exact ⟨value, first, except_bind_eq_ok_iff.mpr ⟨others, later, rfl⟩⟩

theorem length_of_decodeAll {kind : Kind} {count : Nat} {images : Bytes}
    {values : List kind.Carrier} (decoded : kind.decodeAll count images = .ok values) :
    values.length = count := by
  induction count generalizing images values with
  | zero =>
      cases decoded
      rfl
  | succ count ih =>
      obtain ⟨value, others, rfl, -, later⟩ := decodeAll_succ_eq_ok_iff.mp decoded
      rw [List.length_cons, ih later]

/-- Each of several values is the one of its own image. -/
theorem decode_of_decodeAll {kind : Kind} {count : Nat} {images : Bytes}
    {values : List kind.Carrier} (decoded : kind.decodeAll count images = .ok values)
    {index : Nat} {value : kind.Carrier} (at_index : values[index]? = some value) :
    kind.decode ((images.drop (index * kind.size)).take kind.size) = .ok value := by
  induction count generalizing images values index with
  | zero =>
      cases decoded
      cases at_index
  | succ count ih =>
      obtain ⟨first, others, rfl, head, later⟩ := decodeAll_succ_eq_ok_iff.mp decoded
      cases index with
      | zero =>
          cases at_index
          rw [Nat.zero_mul]
          exact head
      | succ index =>
          rw [List.getElem?_cons_succ] at at_index
          rw [Nat.succ_mul, Nat.add_comm, ← List.drop_drop]
          exact ih later at_index

theorem encodeAll_cons (kind : Kind) (value : kind.Carrier) (values : List kind.Carrier) :
    kind.encodeAll (value :: values) = kind.encode value ++ kind.encodeAll values :=
  rfl

theorem drop_encodeAll (kind : Kind) (values : List kind.Carrier) (index : Nat) :
    (kind.encodeAll values).drop (index * kind.size) = kind.encodeAll (values.drop index) := by
  induction index generalizing values with
  | zero => rw [Nat.zero_mul, List.drop_zero, List.drop_zero]
  | succ index ih =>
      cases values with
      | nil => simp [encodeAll]
      | cons value values =>
          rw [Nat.succ_mul, Nat.add_comm, ← List.drop_drop, encodeAll_cons,
            List.drop_left' (kind.length_encode value), ih, List.drop_succ_cons]

/-- The image of one of several values lies at its index. -/
theorem take_drop_encodeAll (kind : Kind) {values : List kind.Carrier} {index : Nat}
    {value : kind.Carrier} (at_index : values[index]? = some value) :
    ((kind.encodeAll values).drop (index * kind.size)).take kind.size = kind.encode value := by
  obtain ⟨inside, rfl⟩ := List.getElem?_eq_some_iff.mp at_index
  rw [drop_encodeAll, List.drop_eq_getElem_cons inside, encodeAll_cons,
    List.take_left' (kind.length_encode _)]

/-- Several values are read back from their images. -/
theorem decodeAll_encodeAll (kind : Kind) (values : List kind.Carrier) :
    kind.decodeAll values.length (kind.encodeAll values) = .ok values := by
  induction values with
  | nil => rfl
  | cons value values ih =>
      have first : (kind.encodeAll (value :: values)).take kind.size = kind.encode value := by
        rw [encodeAll_cons]
        exact List.take_left' (kind.length_encode value)
      have rest : (kind.encodeAll (value :: values)).drop kind.size = kind.encodeAll values := by
        rw [encodeAll_cons]
        exact List.drop_left' (kind.length_encode value)
      rw [List.length_cons, decodeAll, first, rest, decode_encode, ih]
      rfl

end Kind

end RecordPool
