import RecordPool.Address
import RecordPool.Buffer

/-!
# Buffers as byte strings

A buffer is determined by the string of its bytes.  Runs of bytes are read out of that
string by `take` and `drop`, and written over by splicing.
-/

namespace RecordPool.Buffer

theorem getElem?_bytesFrom (buffer : Buffer) (start count index : Nat) :
    (buffer.bytesFrom start count)[index]? =
      if index < count then some (buffer.get (start + index)) else none := by
  unfold bytesFrom
  rw [List.getElem?_map]
  by_cases inside : index < count
  · rw [if_pos inside, List.getElem?_range' inside, Nat.one_mul]
    rfl
  · rw [if_neg inside, List.getElem?_eq_none (by rw [List.length_range']; omega)]
    rfl

theorem getElem?_toBytes (buffer : Buffer) (index : Nat) :
    buffer.toBytes[index]? = if index < buffer.size then some (buffer.get index) else none := by
  rw [toBytes, getElem?_bytesFrom, Nat.zero_add]

/-- A run of bytes written is read at its place, and the others are as before. -/
theorem get_writeAt {buffer : Buffer} {start : Nat} {bytes : Bytes}
    (fits : start + bytes.length ≤ buffer.size) (index : Nat) :
    (buffer.writeAt start bytes).get index =
      if start ≤ index ∧ index < start + bytes.length then bytes.getD (index - start) 0
      else buffer.get index := by
  induction bytes generalizing buffer start with
  | nil =>
      rw [if_neg (by simp only [List.length_nil]; omega)]
      rfl
  | cons byte rest ih =>
      rw [List.length_cons] at fits
      rw [writeAt, ih (by rw [size_set]; omega), get_set]
      by_cases first : index = start
      · rw [if_neg (by omega), if_pos (by omega), if_pos (by simp only [List.length_cons]; omega)]
        simp [first]
      · by_cases later : start + 1 ≤ index ∧ index < start + 1 + rest.length
        · have position : index - start = (index - (start + 1)) + 1 := by omega
          rw [if_pos later, if_pos (by simp only [List.length_cons]; omega), position]
          rfl
        · rw [if_neg later, if_neg (by omega), if_neg (by simp only [List.length_cons]; omega)]

theorem toBytes_zeros (size : Nat) : (zeros size).toBytes = List.replicate size 0 := by
  apply List.ext_getElem?
  intro index
  rw [getElem?_toBytes, List.getElem?_replicate]
  simp

theorem bytesFrom_eq_toBytes {buffer : Buffer} {start count : Nat}
    (inside : start + count ≤ buffer.size) :
    buffer.bytesFrom start count = (buffer.toBytes.drop start).take count := by
  apply List.ext_getElem?
  intro index
  rw [getElem?_bytesFrom, List.getElem?_take, List.getElem?_drop, getElem?_toBytes]
  split
  case isTrue below => rw [if_pos (by omega)]
  case isFalse => rfl

/-- A run of bytes written is spliced into the others. -/
theorem toBytes_writeAt {buffer : Buffer} {start : Nat} {bytes : Bytes}
    (fits : start + bytes.length ≤ buffer.size) :
    (buffer.writeAt start bytes).toBytes =
      buffer.toBytes.take start ++ bytes ++ buffer.toBytes.drop (start + bytes.length) := by
  apply List.ext_getElem?
  intro index
  have front : (buffer.toBytes.take start).length = start := by
    rw [List.length_take, length_toBytes]
    omega
  rw [List.append_assoc, List.getElem?_append, front, List.getElem?_append, List.getElem?_take,
    List.getElem?_drop]
  simp only [getElem?_toBytes, size_writeAt, get_writeAt fits]
  by_cases before : index < start
  · have outside : ¬ (start ≤ index ∧ index < start + bytes.length) := by omega
    rw [if_pos before, if_pos before, if_neg outside]
  · rw [if_neg before]
    by_cases within : index < start + bytes.length
    · have place : index - start < bytes.length := by omega
      have inside : index < buffer.size := by omega
      have written : start ≤ index ∧ index < start + bytes.length :=
        ⟨Nat.le_of_not_lt before, within⟩
      rw [if_pos inside, if_pos written, if_pos place,
        List.getD_eq_getElem?_getD, List.getElem?_eq_getElem place, Option.getD_some]
    · have outside : ¬ (start ≤ index ∧ index < start + bytes.length) := by omega
      have place : ¬ index - start < bytes.length := by omega
      have position : start + bytes.length + (index - start - bytes.length) = index := by omega
      rw [if_neg outside, if_neg place, position]

theorem bytesFrom_add (buffer : Buffer) (start count more : Nat) :
    buffer.bytesFrom start (count + more) =
      buffer.bytesFrom start count ++ buffer.bytesFrom (start + count) more := by
  rw [bytesFrom, ← List.range'_append_1, List.map_append]
  rfl

/-- A part of a run of bytes is the bytes at its place. -/
theorem take_drop_bytesFrom (buffer : Buffer) {start count skipped part : Nat}
    (within : skipped + part ≤ count) :
    ((buffer.bytesFrom start count).drop skipped).take part =
      buffer.bytesFrom (start + skipped) part := by
  obtain ⟨rest, rfl⟩ := Nat.exists_eq_add_of_le within
  rw [Nat.add_assoc, bytesFrom_add, List.drop_left' (length_bytesFrom _ _ _), bytesFrom_add,
    List.take_left' (length_bytesFrom _ _ _)]

/-- Bytes are written one run after another. -/
theorem writeAt_append (buffer : Buffer) (start : Nat) (bytes others : Bytes) :
    buffer.writeAt start (bytes ++ others) =
      (buffer.writeAt start bytes).writeAt (start + bytes.length) others := by
  induction bytes generalizing buffer start with
  | nil => rfl
  | cons byte rest ih =>
      have later : start + (byte :: rest).length = start + 1 + rest.length := by
        rw [List.length_cons]
        omega
      rw [List.cons_append, writeAt, ih, later]
      rfl

/-! ## Runs of bytes written -/

/-- Inside a run of bytes written, those bytes are read. -/
theorem bytesFrom_writeAt_within {buffer : Buffer} {start : Nat} {bytes : Bytes}
    (fits : start + bytes.length ≤ buffer.size) {skipped count : Nat}
    (within : skipped + count ≤ bytes.length) :
    (buffer.writeAt start bytes).bytesFrom (start + skipped) count =
      (bytes.drop skipped).take count := by
  apply List.ext_getElem?
  intro index
  rw [getElem?_bytesFrom, List.getElem?_take, List.getElem?_drop]
  by_cases inside : index < count
  · have place : skipped + index < bytes.length := by omega
    have position : start + skipped + index - start = skipped + index := by omega
    rw [if_pos inside, if_pos inside, get_writeAt fits, if_pos (by omega), position,
      List.getD_eq_getElem?_getD, List.getElem?_eq_getElem place, Option.getD_some]
  · rw [if_neg inside, if_neg inside]

/-- A run of bytes written is read back. -/
theorem bytesFrom_writeAt {buffer : Buffer} {start : Nat} {bytes : Bytes}
    (fits : start + bytes.length ≤ buffer.size) :
    (buffer.writeAt start bytes).bytesFrom start bytes.length = bytes := by
  have whole := bytesFrom_writeAt_within fits (Nat.le_of_eq (Nat.zero_add bytes.length))
  rwa [Nat.add_zero, List.drop_zero, List.take_length] at whole

/-- Apart from a run of bytes written, the bytes are as before. -/
theorem bytesFrom_writeAt_apart {buffer : Buffer} {start : Nat} {bytes : Bytes}
    (fits : start + bytes.length ≤ buffer.size) {other count : Nat}
    (apart : other + count ≤ start ∨ start + bytes.length ≤ other) :
    (buffer.writeAt start bytes).bytesFrom other count = buffer.bytesFrom other count := by
  apply List.ext_getElem?
  intro index
  rw [getElem?_bytesFrom, getElem?_bytesFrom]
  by_cases inside : index < count
  · rw [if_pos inside, if_pos inside, get_writeAt fits, if_neg (by omega)]
  · rw [if_neg inside, if_neg inside]

/-- Runs of bytes that lie apart are written in either order. -/
theorem writeAt_comm {buffer : Buffer} {start other : Nat} {bytes others : Bytes}
    (fits : start + bytes.length ≤ buffer.size)
    (othersFit : other + others.length ≤ buffer.size)
    (apart : other + others.length ≤ start ∨ start + bytes.length ≤ other) :
    (buffer.writeAt start bytes).writeAt other others =
      (buffer.writeAt other others).writeAt start bytes := by
  apply ext
  · simp only [size_writeAt]
  · intro index
    rw [get_writeAt (by rwa [size_writeAt]), get_writeAt fits,
      get_writeAt (by rwa [size_writeAt]), get_writeAt othersFit]
    by_cases first : start ≤ index ∧ index < start + bytes.length
    · rw [if_neg (by omega), if_pos first, if_pos first]
    · rw [if_neg first, if_neg first]

/-! ## Copies -/

/-- What is cut out of a buffer is told by its bytes. -/
theorem slice_congr {first second : Buffer} (same : ∀ index, first.get index = second.get index)
    (start count : Nat) : first.slice start count = second.slice start count := by
  apply ext
  · rfl
  · intro index
    rw [get_slice, get_slice, same]

/-- Past the end there is nothing but zero to cut out. -/
theorem slice_past_end {buffer : Buffer} {start : Nat} (past : buffer.size ≤ start)
    (count : Nat) : buffer.slice start count = zeros count := by
  apply ext
  · rfl
  · intro index
    rw [get_slice, get_zeros, get_past_end (by omega), ite_self]

/-- A piece written over a buffer is cut out of it again. -/
theorem slice_splice {buffer piece : Buffer} {start : Nat}
    (fits : start + piece.size ≤ buffer.size) :
    (buffer.splice start piece).slice start piece.size = piece := by
  apply ext
  · rfl
  · intro index
    rw [get_slice, get_splice fits]
    by_cases inside : index < piece.size
    · rw [if_pos inside, if_pos (by omega), Nat.add_sub_cancel_left]
    · rw [if_neg inside, get_past_end (Nat.le_of_not_lt inside)]

/-- Apart from a piece written over a buffer, what is cut out of it is as before. -/
theorem slice_splice_of_apart {buffer piece : Buffer} {start place count : Nat}
    (fits : start + piece.size ≤ buffer.size)
    (apart : place + count ≤ start ∨ start + piece.size ≤ place) :
    (buffer.splice start piece).slice place count = buffer.slice place count := by
  apply ext
  · rfl
  · intro index
    rw [get_slice, get_slice, get_splice fits]
    by_cases inside : index < count
    · rw [if_pos inside, if_pos inside, if_neg (by omega)]
    · rw [if_neg inside, if_neg inside]

/-- Pieces that lie apart are written over in any order. -/
theorem splice_comm {buffer piece other : Buffer} {start place : Nat}
    (fits : start + piece.size ≤ buffer.size) (otherFits : place + other.size ≤ buffer.size)
    (apart : start + piece.size ≤ place ∨ place + other.size ≤ start) :
    (buffer.splice start piece).splice place other =
      (buffer.splice place other).splice start piece := by
  apply ext
  · rfl
  · intro index
    rw [get_splice (by rwa [size_splice]), get_splice fits, get_splice (by rwa [size_splice]),
      get_splice otherFits]
    by_cases first : start ≤ index ∧ index < start + piece.size
    · rw [if_neg (by omega), if_pos first, if_pos first]
    · rw [if_neg first, if_neg first]

/-- A piece cut out of a buffer and written over its place leaves the buffer as it was. -/
theorem splice_slice {buffer : Buffer} {start count : Nat} (fits : start + count ≤ buffer.size) :
    buffer.splice start (buffer.slice start count) = buffer := by
  apply ext
  · rfl
  · intro index
    rw [get_splice (by rwa [size_slice]), get_slice, size_slice]
    by_cases inside : start ≤ index ∧ index < start + count
    · rw [if_pos inside, if_pos (by omega), Nat.add_sub_cancel' inside.1]
    · rw [if_neg inside]

/-- Bytes written over a piece that was cut out are written over its place. -/
theorem splice_slice_writeAt {buffer : Buffer} {start count offset : Nat} {bytes : Bytes}
    (inside : start + count ≤ buffer.size) (fits : offset + bytes.length ≤ count) :
    buffer.splice start ((buffer.slice start count).writeAt offset bytes) =
      buffer.writeAt (start + offset) bytes := by
  have size : ((buffer.slice start count).writeAt offset bytes).size = count := by
    rw [size_writeAt, size_slice]
  apply ext
  · rw [size_splice, size_writeAt]
  · intro index
    rw [get_splice (by rwa [size]), size, get_writeAt (by rwa [size_slice]),
      get_writeAt (by omega), get_slice]
    by_cases written : start + offset ≤ index ∧ index < start + offset + bytes.length
    · have position : index - start - offset = index - (start + offset) := by omega
      rw [if_pos (by omega), if_pos (by omega), if_pos written, position]
    · rw [if_neg written]
      by_cases cut : start ≤ index ∧ index < start + count
      · rw [if_pos cut, if_neg (by omega), if_pos (by omega), Nat.add_sub_cancel' cut.1]
      · rw [if_neg cut]

/-- The bytes of a piece that was cut out. -/
theorem toBytes_slice {buffer : Buffer} {start count : Nat}
    (inside : start + count ≤ buffer.size) :
    (buffer.slice start count).toBytes = (buffer.toBytes.drop start).take count := by
  apply List.ext_getElem?
  intro index
  rw [getElem?_toBytes, List.getElem?_take, List.getElem?_drop, getElem?_toBytes, size_slice,
    get_slice]
  by_cases within : index < count
  · rw [if_pos within, if_pos within, if_pos within, if_pos (by omega)]
  · rw [if_neg within, if_neg within]

/-- A run inside a buffer, as a part of all of it. -/
theorem part_whole {buffer : Buffer} {span : Span} (inside : span.stop ≤ buffer.size) :
    buffer.whole.part span = .ok span := by
  rw [Span.part_of_le inside]
  simp only [whole, Nat.zero_add]

/-- A buffer lengthened has the bytes that it had. -/
theorem get_resize_of_le {buffer : Buffer} {size : Nat} (longer : buffer.size ≤ size)
    (index : Nat) : (buffer.resize size).get index = buffer.get index := by
  rw [get_resize]
  split
  case isTrue => rfl
  case isFalse past => rw [get_past_end (by omega)]

theorem toBytes_resize {buffer : Buffer} {size : Nat} (longer : buffer.size ≤ size) :
    (buffer.resize size).toBytes =
      buffer.toBytes ++ List.replicate (size - buffer.size) 0 := by
  apply List.ext_getElem?
  intro index
  rw [getElem?_toBytes, List.getElem?_append, List.getElem?_replicate, length_toBytes,
    getElem?_toBytes, size_resize, get_resize_of_le longer]
  by_cases before : index < buffer.size
  · rw [if_pos (by omega), if_pos before, if_pos before]
  · rw [if_neg before, get_past_end (Nat.le_of_not_lt before)]
    by_cases inside : index < size
    · rw [if_pos inside, if_pos (by omega)]
    · rw [if_neg inside, if_neg (by omega)]

/-- A buffer copied to the beginning of a longer one of zeros is the buffer lengthened. -/
theorem splice_zeros {buffer : Buffer} {size : Nat} (longer : buffer.size ≤ size) :
    (zeros size).splice 0 buffer = buffer.resize size := by
  apply ext
  · rw [size_splice, size_zeros, size_resize]
  · intro index
    rw [get_splice (by rwa [size_zeros, Nat.zero_add]), get_resize_of_le longer, get_zeros,
      Nat.zero_add, Nat.sub_zero]
    by_cases inside : index < buffer.size
    · rw [if_pos ⟨Nat.zero_le index, inside⟩]
    · rw [if_neg (by omega), get_past_end (Nat.le_of_not_lt inside)]

/-! ## Runs of bytes taken over from another buffer -/

/-- A run of bytes written from another buffer has the bytes that it has there. -/
theorem get_writeAt_bytesFrom {old : Buffer} (new : Buffer) {span : Span}
    (inside : span.stop ≤ old.size) (position : Nat) :
    (old.writeAt span.start (new.bytesFrom span.start span.count)).get position =
      if span.start ≤ position ∧ position < span.stop then new.get position
      else old.get position := by
  have fits : span.start + (new.bytesFrom span.start span.count).length ≤ old.size := by
    rwa [length_bytesFrom]
  have written := get_writeAt fits position
  rw [length_bytesFrom, ← Span.stop] at written
  rw [written]
  by_cases covered : span.start ≤ position ∧ position < span.stop
  · obtain ⟨skipped, rfl⟩ := Nat.exists_eq_add_of_le covered.1
    have within : skipped < span.count := Nat.lt_of_add_lt_add_left covered.2
    rw [if_pos covered, if_pos covered, Nat.add_sub_cancel_left, List.getD_eq_getElem?_getD,
      getElem?_bytesFrom, if_pos within, Option.getD_some]
  · rw [if_neg covered, if_neg covered]

/-- The buffer after some runs of bytes of another one were written over it. -/
def overlay (old new : Buffer) (spans : List Span) : Buffer :=
  spans.foldl (fun buffer span => buffer.writeAt span.start (new.bytesFrom span.start span.count))
    old

variable {old new : Buffer} {spans : List Span}

theorem size_overlay (old new : Buffer) (spans : List Span) :
    (old.overlay new spans).size = old.size := by
  induction spans generalizing old with
  | nil => rfl
  | cons span rest ih => exact (ih (old.writeAt span.start _)).trans (size_writeAt _ _ _)

/-- Where some run lies the bytes are the new ones, whichever run was written last. -/
theorem get_overlay (inside : ∀ span ∈ spans, span.stop ≤ old.size) (position : Nat) :
    (old.overlay new spans).get position =
      if ∃ span ∈ spans, span.start ≤ position ∧ position < span.stop then new.get position
      else old.get position := by
  induction spans generalizing old with
  | nil => simp [overlay]
  | cons span rest ih =>
      have insideLater : ∀ other ∈ rest, other.stop ≤
          (old.writeAt span.start (new.bytesFrom span.start span.count)).size := by
        intro other among
        rw [size_writeAt]
        exact inside other (List.mem_cons_of_mem span among)
      rw [overlay, List.foldl_cons, ← overlay, ih insideLater,
        get_writeAt_bytesFrom new (inside span List.mem_cons_self)]
      by_cases later : ∃ other ∈ rest, other.start ≤ position ∧ position < other.stop
      · obtain ⟨other, among, covers⟩ := later
        rw [if_pos ⟨other, among, covers⟩,
          if_pos ⟨other, List.mem_cons_of_mem span among, covers⟩]
      · simp only [List.mem_cons, exists_eq_or_imp, later, or_false, if_false]

/-- Runs that cover all bytes in which two buffers differ make up all of the difference. -/
theorem overlay_eq (size : old.size = new.size) (inside : ∀ span ∈ spans, span.stop ≤ new.size)
    (covers : ∀ position < new.size, old.get position ≠ new.get position →
      ∃ span ∈ spans, span.start ≤ position ∧ position < span.stop) :
    old.overlay new spans = new := by
  rw [← size] at inside
  apply ext
  · rw [size_overlay, size]
  · intro position
    rw [get_overlay inside]
    by_cases within : position < new.size
    · split
      case isTrue => rfl
      case isFalse uncovered => exact Decidable.of_not_not (mt (covers position within) uncovered)
    · have past : new.size ≤ position := Nat.le_of_not_lt within
      rw [get_past_end past, get_past_end (size ▸ past), ite_self]

end RecordPool.Buffer
