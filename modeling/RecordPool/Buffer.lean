import RecordPool.Address
import RecordPool.Bytes
import RecordPool.Sparse

/-!
# Buffers

A buffer is a block of memory of a fixed number of bytes, such as the memory of a
record or that of all records of a store.  Its bytes are zero until they are written.
Runs of bytes are read out as byte strings and written over, or copied from buffer to
buffer as a whole.  Buffers of one size with the same bytes are equal (`Buffer.ext`).
-/

namespace RecordPool

/-- A block of memory. -/
structure Buffer where
  /-- The number of bytes. -/
  size : Nat
  written : Sparse UInt8 0
  /-- Nothing is written past the end. -/
  written_past_end : ∀ index, size ≤ index → written.get index = 0
  deriving DecidableEq

namespace Buffer

/-! ## Single bytes -/

/-- A buffer of zero bytes. -/
def zeros (size : Nat) : Buffer where
  size := size
  written := .blank
  written_past_end := by simp

/-- The byte at an index, zero past the end. -/
def get (buffer : Buffer) (index : Nat) : UInt8 :=
  buffer.written.get index

/-- The buffer with a byte written over.  A byte past its end is dropped. -/
def set (buffer : Buffer) (index : Nat) (byte : UInt8) : Buffer :=
  if inside : index < buffer.size then
    { size := buffer.size
      written := buffer.written.set index byte
      written_past_end := fun other past => by
        rw [Sparse.get_set, if_neg (by omega)]
        exact buffer.written_past_end other past }
  else
    buffer

@[simp]
theorem size_zeros (size : Nat) : (zeros size).size = size :=
  rfl

@[simp]
theorem get_zeros (size index : Nat) : (zeros size).get index = 0 := by
  simp [get, zeros]

@[simp]
theorem size_set (buffer : Buffer) (index : Nat) (byte : UInt8) :
    (buffer.set index byte).size = buffer.size := by
  unfold set
  split <;> rfl

/-- There is nothing but zero past the end. -/
theorem get_past_end {buffer : Buffer} {index : Nat} (past : buffer.size ≤ index) :
    buffer.get index = 0 :=
  buffer.written_past_end index past

/-- A byte written is read at its index, and the others are as before. -/
theorem get_set (buffer : Buffer) (index other : Nat) (byte : UInt8) :
    (buffer.set index byte).get other =
      if index = other ∧ index < buffer.size then byte else buffer.get other := by
  by_cases inside : index < buffer.size
  · simp [set, get, inside, Sparse.get_set]
  · simp [set, inside]

/-- Buffers of one size with the same bytes are equal. -/
@[ext]
theorem ext {left right : Buffer} (size : left.size = right.size)
    (same : ∀ index, left.get index = right.get index) : left = right := by
  obtain ⟨leftSize, leftWritten, left_past_end⟩ := left
  obtain ⟨rightSize, rightWritten, right_past_end⟩ := right
  obtain rfl : leftSize = rightSize := size
  obtain rfl : leftWritten = rightWritten := Sparse.ext same
  rfl

/-! ## Runs of bytes -/

/-- The `count` bytes from `start`, those past the end zero. -/
def bytesFrom (buffer : Buffer) (start count : Nat) : Bytes :=
  (List.range' start count).map buffer.get

/-- All bytes. -/
def toBytes (buffer : Buffer) : Bytes :=
  buffer.bytesFrom 0 buffer.size

/-- The `count` bytes from `start`, which must lie inside the buffer. -/
def window (buffer : Buffer) (start count : Nat) : Except Fault Bytes :=
  if start + count ≤ buffer.size then
    .ok (buffer.bytesFrom start count)
  else
    .error .byteRange

/-- The buffer with the bytes from `start` written over.  Bytes past its end are
dropped. -/
def writeAt (buffer : Buffer) (start : Nat) : Bytes → Buffer
  | [] => buffer
  | byte :: rest => (buffer.set start byte).writeAt (start + 1) rest

/-- The buffer of given bytes. -/
def ofBytes (bytes : Bytes) : Buffer :=
  (zeros bytes.length).writeAt 0 bytes

@[simp]
theorem length_bytesFrom (buffer : Buffer) (start count : Nat) :
    (buffer.bytesFrom start count).length = count := by
  simp [bytesFrom]

@[simp]
theorem length_toBytes (buffer : Buffer) : buffer.toBytes.length = buffer.size :=
  buffer.length_bytesFrom 0 buffer.size

/-- A window exists exactly inside the buffer. -/
theorem window_eq_ok_iff {buffer : Buffer} {start count : Nat} {run : Bytes} :
    buffer.window start count = .ok run ↔
      start + count ≤ buffer.size ∧ run = buffer.bytesFrom start count := by
  unfold window
  split
  case isTrue inside => simp [inside, eq_comm]
  case isFalse outside => simp [outside]

@[simp]
theorem size_writeAt (buffer : Buffer) (start : Nat) (bytes : Bytes) :
    (buffer.writeAt start bytes).size = buffer.size := by
  induction bytes generalizing buffer start with
  | nil => rfl
  | cons byte rest ih => simp [writeAt, ih]

/-! ## Copies -/

/-- All of a buffer, as a run of its bytes. -/
def whole (buffer : Buffer) : Span :=
  ⟨0, buffer.size⟩

/-- The `count` bytes from `start` as a buffer of their own, those past the end zero. -/
def slice (buffer : Buffer) (start count : Nat) : Buffer where
  size := count
  written := Sparse.blank.copyRun buffer.written 0 start count
  written_past_end index past := by
    rw [Sparse.get_copyRun, if_neg (by omega), Sparse.get_blank]

/-- The buffer with the bytes of a piece written over its own from `start` on.  Bytes past
its end are dropped. -/
def splice (buffer : Buffer) (start : Nat) (piece : Buffer) : Buffer where
  size := buffer.size
  written := buffer.written.copyRun piece.written start 0 (min piece.size (buffer.size - start))
  written_past_end index past := by
    rw [Sparse.get_copyRun, if_neg (by omega)]
    exact buffer.written_past_end index past

/-- The buffer lengthened by zeros, or cut off, to a number of bytes. -/
def resize (buffer : Buffer) (size : Nat) : Buffer :=
  if longer : buffer.size ≤ size then
    { size := size
      written := buffer.written
      written_past_end := fun index past =>
        buffer.written_past_end index (Nat.le_trans longer past) }
  else
    buffer.slice 0 size

/-- The bytes of a run. -/
def read (buffer : Buffer) (span : Span) : Buffer :=
  buffer.slice span.start span.count

/-- Copies as many bytes as a run has over it. -/
def copyInto (buffer : Buffer) (span : Span) (piece : Buffer) : Except Fault Buffer :=
  if piece.size = span.count then .ok (buffer.splice span.start piece) else .error .byteCount

/-- Exchanges the bytes of two runs of one length that lie apart. -/
def exchange (buffer : Buffer) (left right : Span) : Except Fault Buffer :=
  if left.count = right.count then
    .ok ((buffer.splice left.start (buffer.read right)).splice right.start (buffer.read left))
  else
    .error .byteCount

@[simp]
theorem size_slice (buffer : Buffer) (start count : Nat) : (buffer.slice start count).size = count :=
  rfl

theorem get_slice (buffer : Buffer) (start count index : Nat) :
    (buffer.slice start count).get index =
      if index < count then buffer.get (start + index) else 0 := by
  have copied := Sparse.get_copyRun .blank buffer.written 0 start count index
  simpa [get, slice] using copied

@[simp]
theorem size_splice (buffer : Buffer) (start : Nat) (piece : Buffer) :
    (buffer.splice start piece).size = buffer.size :=
  rfl

/-- A piece written over is read at its place, and the other bytes are as before. -/
theorem get_splice {buffer piece : Buffer} {start : Nat}
    (fits : start + piece.size ≤ buffer.size) (index : Nat) :
    (buffer.splice start piece).get index =
      if start ≤ index ∧ index < start + piece.size then piece.get (index - start)
      else buffer.get index := by
  unfold get splice
  rw [Sparse.get_copyRun, Nat.min_eq_left (by omega), Nat.zero_add]

@[simp]
theorem size_resize (buffer : Buffer) (size : Nat) : (buffer.resize size).size = size := by
  unfold resize
  split <;> rfl

theorem get_resize (buffer : Buffer) (size index : Nat) :
    (buffer.resize size).get index = if index < size then buffer.get index else 0 := by
  unfold resize
  split
  case isTrue longer =>
      by_cases inside : index < size
      · rw [if_pos inside]
        rfl
      · rw [if_neg inside]
        exact buffer.written_past_end index (by omega)
  case isFalse => rw [get_slice, Nat.zero_add]

end Buffer

end RecordPool
