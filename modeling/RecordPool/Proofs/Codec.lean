import RecordPool.Proofs.Value

/-!
# Values in buffers, bit for bit

Writing a value over a buffer that is as long as its kind is wide replaces every byte of it, and
the bytes are the bits of the value in groups of eight, the least significant group first: of an
integer its two's complement, of a float its IEEE 754 pattern.  Reading takes the value out again.
The other way round, bytes are the image of what is read from them, except that a truth value is
read from bytes that are not its image.  With any other length both are faults, and the buffer
keeps its bytes.
-/

namespace RecordPool

/-- Bytes written from an index on stand there, between the ones that were there before. -/
theorem overwriteFrom_apply {index : Nat} {image buffer : Bytes}
    (fits : index + image.length ≤ buffer.length) :
    overwriteFrom index image buffer =
      .ok () (buffer.take index ++ image ++ buffer.drop (index + image.length)) := by
  induction image generalizing index buffer with
  | nil => simp [overwriteFrom]
  | cons byte rest ih =>
      rw [List.length_cons] at fits
      have inside : index < buffer.length := by omega
      have fitsRest : index + 1 + rest.length ≤ (buffer.set index byte).length := by
        rw [List.length_set]
        omega
      have before : (buffer.set index byte).take (index + 1) = buffer.take index ++ [byte] := by
        rw [List.set_eq_take_append_cons_drop, if_pos inside, List.append_cons]
        apply List.take_left'
        rw [List.length_append, List.length_take_of_le (Nat.le_of_lt inside),
          List.length_singleton]
      have after : (buffer.set index byte).drop (index + 1 + rest.length) =
          buffer.drop (index + (byte :: rest).length) := by
        rw [List.drop_set_of_lt (by omega), List.length_cons, Nat.add_assoc, Nat.add_comm 1]
      simp only [overwriteFrom, bind_apply, modify_apply, ih fitsRest, before, after,
        List.append_assoc, List.singleton_append]

theorem getElem?_littleEndian {width n index : Nat} (inside : index < width) :
    (littleEndian width n)[index]? = some (UInt8.ofNat (n / 256 ^ index)) := by
  induction width generalizing n index with
  | zero => omega
  | succ width ih =>
      cases index with
      | zero => simp [littleEndian]
      | succ index =>
          rw [littleEndian, List.getElem?_cons_succ, ih (Nat.lt_of_succ_lt_succ inside),
            Nat.div_div_eq_div_mul, ← pow_succ']

theorem ofLittleEndian_lt (bytes : Bytes) : ofLittleEndian bytes < 256 ^ bytes.length := by
  induction bytes with
  | nil => exact Nat.one_pos
  | cons byte rest ih =>
      have bound := byte.toNat_lt
      rw [ofLittleEndian, List.length_cons, pow_succ']
      omega

namespace Kind

/-- The bits that represent a value: of an integer its two's complement, of a float its IEEE 754
pattern, and one or zero for a truth value. -/
def pattern : (kind : Kind) → kind.Carrier → BitVec (8 * kind.size)
  | .bool, value => BitVec.ofNat 8 value.toNat
  | .i8, value => BitVec.ofInt 8 value.toInt
  | .u8, value => BitVec.ofInt 8 value.toNat
  | .i16, value => BitVec.ofInt 16 value.toInt
  | .u16, value => BitVec.ofInt 16 value.toNat
  | .i32, value => BitVec.ofInt 32 value.toInt
  | .u32, value => BitVec.ofInt 32 value.toNat
  | .i64, value => BitVec.ofInt 64 value.toInt
  | .u64, value => BitVec.ofInt 64 value.toNat
  | .f32, value => value.bits.toBitVec
  | .f64, value => value.bits.toBitVec

theorem toNat_pattern (kind : Kind) (value : kind.Carrier) :
    (kind.pattern value).toNat = kind.toBits value := by
  cases kind with
  | bool => cases value <;> rfl
  | i8 | i16 | i32 | i64 => exact congrArg BitVec.toNat BitVec.ofInt_toInt
  | u8 | u16 | u32 | u64 =>
      simp only [pattern, toBits, BitVec.ofInt_natCast]
      exact Nat.mod_eq_of_lt value.toBitVec.isLt
  | f32 | f64 => rfl

/-- Only truth values have bits to spare. -/
theorem toBits_ofBits {kind : Kind} (notBool : kind ≠ .bool) {bits : Nat}
    (fits : bits < 256 ^ kind.size) : kind.toBits (kind.ofBits bits) = bits := by
  cases kind with
  | bool => exact absurd rfl notBool
  | i8 | i16 | i32 | i64 => exact Nat.mod_eq_of_lt fits
  | u8 | u16 | u32 | u64 => exact Nat.mod_eq_of_lt fits
  | f32 | f64 => exact Nat.mod_eq_of_lt fits

variable {kind : Kind}

/-- Each byte of an image holds the eight bits of the value that belong there. -/
theorem toBitVec_of_getElem?_encode {value : kind.Carrier} {index : Nat} {byte : UInt8}
    (at_index : (kind.encode value)[index]? = some byte) :
    byte.toBitVec = (kind.pattern value).extractLsb' (8 * index) 8 := by
  have inside : index < kind.size := by
    rw [← kind.length_encode value]
    exact (List.getElem?_eq_some_iff.mp at_index).1
  rw [encode, getElem?_littleEndian inside] at at_index
  have byte_eq : byte = UInt8.ofNat (kind.toBits value / 256 ^ index) :=
    (Option.some.inj at_index).symm
  rw [byte_eq, BitVec.extractLsb', toNat_pattern, Nat.shiftRight_eq_div_pow, pow_mul]
  rfl

theorem overwrite_of_length (value : kind.Carrier) {buffer : Bytes}
    (length : buffer.length = kind.size) :
    kind.overwrite value buffer = .ok () (kind.encode value) := by
  have fits : 0 + (kind.encode value).length ≤ buffer.length :=
    Nat.le_of_eq (by rw [length_encode, length, Nat.zero_add])
  simp only [overwrite, bind_apply, get_apply, ite_action_apply, if_pos length,
    overwriteFrom_apply fits]
  rw [length_encode, Nat.zero_add, ← length, List.drop_length, List.take_zero, List.nil_append,
    List.append_nil]

theorem overwrite_of_other_length (value : kind.Carrier) {buffer : Bytes}
    (other : buffer.length ≠ kind.size) :
    kind.overwrite value buffer = .error kind.widthFault buffer := by
  simp only [overwrite, bind_apply, get_apply, ite_action_apply, if_neg other, throw_apply]

/-- Unless they are read as a truth value, bytes are the image of what is read from them. -/
theorem encode_of_decode (notBool : kind ≠ .bool) {image : Bytes} {value : kind.Carrier}
    (decoded : kind.decode image = .ok value) : kind.encode value = image := by
  by_cases length : image.length = kind.size
  · rw [decode, if_pos length] at decoded
    have fits : ofLittleEndian image < 256 ^ kind.size := by
      rw [← length]
      exact ofLittleEndian_lt image
    rw [← Except.ok.inj decoded, encode, toBits_ofBits notBool fits, ← length,
      littleEndian_ofLittleEndian]
  · rw [decode, if_neg length] at decoded
    cases decoded

/-- How the values of a kind are written over buffers and read from bytes. -/
structure CodesExactly (kind : Kind) : Prop where
  /-- The image of a value takes the whole of a buffer and holds the bits of the value, and the
  value is read from it. -/
  writes : ∀ value, ∃ image, image.length = kind.size ∧
    (∀ buffer, buffer.length = kind.size → kind.overwrite value buffer = .ok () image) ∧
    (∀ index byte, image[index]? = some byte →
      byte.toBitVec = (kind.pattern value).extractLsb' (8 * index) 8) ∧
    kind.decode image = .ok value
  /-- Bytes are written again as they were read. -/
  rewrites : kind ≠ .bool → ∀ image, image.length = kind.size →
    ∃ value, kind.decode image = .ok value ∧
      ∀ buffer, buffer.length = kind.size → kind.overwrite value buffer = .ok () image
  /-- With any other length both are faults, and the buffer stays as it is. -/
  refuses : ∀ bytes : Bytes, bytes.length ≠ kind.size →
    kind.decode bytes = .error kind.widthFault ∧
      ∀ value, kind.overwrite value bytes = .error kind.widthFault bytes

theorem codesExactly (kind : Kind) : kind.CodesExactly where
  writes value :=
    ⟨kind.encode value, kind.length_encode value, fun _ => overwrite_of_length value,
      fun _ _ => toBitVec_of_getElem?_encode, kind.decode_encode value⟩
  rewrites notBool image length := by
    obtain ⟨value, decoded⟩ := kind.decode_of_length length
    refine ⟨value, decoded, ?_⟩
    intro buffer fits
    rw [overwrite_of_length value fits, encode_of_decode notBool decoded]
  refuses bytes other := ⟨if_neg other, fun value => overwrite_of_other_length value other⟩

/-- A byte that is not zero is read as true, though only one is written for it. -/
theorem decode_bool_of_ne_zero {byte : UInt8} (notZero : byte ≠ 0) :
    Kind.bool.decode [byte] = .ok true := by
  have positive : ofLittleEndian [byte] ≠ 0 := by
    intro zero
    exact notZero (UInt8.toNat_inj.mp zero)
  have isTrue : Kind.bool.ofBits (ofLittleEndian [byte]) = true := bne_iff_ne.mpr positive
  have oneByte : [byte].length = Kind.bool.size := rfl
  rw [decode, if_pos oneByte, isTrue]

end Kind

/-- The values of every kind are written and read bit for bit, and a truth value is read as true
from every byte that is not zero, and then written as one. -/
theorem every_kind_codes_exactly :
    (∀ kind : Kind, kind.CodesExactly) ∧
      ∀ byte : UInt8, byte ≠ 0 → Kind.bool.decode [byte] = .ok true ∧
        ∀ buffer, buffer.length = Kind.bool.size →
          Kind.bool.overwrite true buffer = .ok () [1] := by
  refine ⟨Kind.codesExactly, ?_⟩
  intro byte notZero
  refine ⟨Kind.decode_bool_of_ne_zero notZero, ?_⟩
  intro buffer length
  have written : Kind.bool.overwrite true buffer = .ok () (Kind.bool.encode true) :=
    Kind.overwrite_of_length _ length
  exact written

/-- A signalling NaN is written with its payload over bytes that are as many, a truth value is
read from a byte that is neither zero nor one, and a buffer of three bytes is no place for a
float. -/
theorem odd_patterns_code_exactly :
    Kind.f32.overwrite ⟨0x7fa00001⟩ [0xff, 0xff, 0xff, 0xff] =
        .ok () [0x01, 0x00, 0xa0, 0x7f] ∧
      Kind.bool.decode [7] = .ok true ∧
      Kind.f32.overwrite ⟨0x7fa00001⟩ [1, 2, 3] = .error .byteCount [1, 2, 3] := by
  obtain ⟨everyKind, oddTruth⟩ := every_kind_codes_exactly
  obtain ⟨nan, decoded, written⟩ :=
    (everyKind .f32).rewrites (by decide) [0x01, 0x00, 0xa0, 0x7f] rfl
  have payload : nan = ⟨0x7fa00001⟩ := (Except.ok.inj decoded).symm
  subst payload
  refine ⟨written _ rfl, (oddTruth 7 (by decide)).1, ?_⟩
  exact ((everyKind .f32).refuses [1, 2, 3] (by decide)).2 _

end RecordPool
