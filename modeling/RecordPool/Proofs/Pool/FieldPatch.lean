import RecordPool.Proofs.Buffer
import RecordPool.Proofs.Codec
import RecordPool.Proofs.Layout.Accessor
import RecordPool.Proofs.Pool.FieldWrite

/-!
# What writes to fields put into a record

Most writes to fields put a string of bytes, which does not depend on the record, at one
place of the record; a move and a step work out what they write from what is there.  If
the location lies inside the record and the values are as many as it holds, the edit that
is planned can be made, whatever the record holds.
-/

namespace RecordPool

namespace Edit

variable {α β : Type}

theorem run_bind (first : Edit α) (next : α → Edit β) (contents : Buffer) :
    (first >>= next).run contents =
      match first.run contents with
      | .ok value left => (next value).run left
      | .error fault left => .error fault left :=
  rfl

/-- An edit that puts a string of bytes at a place of every record of a size. -/
structure Puts (size start : Nat) (bytes : Bytes) (edit : Edit Unit) : Prop where
  fits : start + bytes.length ≤ size
  run_eq : ∀ contents, contents.size = size →
    edit.run contents = .ok () (contents.writeAt start bytes)

theorem splice_puts {size start : Nat} {bytes : Bytes} (fits : start + bytes.length ≤ size) :
    Puts size start bytes (splice start bytes) where
  fits := fits
  run_eq contents same := by
    subst same
    exact if_pos fits

theorem put_puts {size offset : Nat} {kind : Kind} (value : kind.Carrier)
    (fits : offset + kind.size ≤ size) :
    Puts size offset (kind.encode value) (put kind offset value) :=
  splice_puts (by rwa [Kind.length_encode])

theorem copyInto_puts {size start : Nat} {bytes : Bytes} (fits : start + bytes.length ≤ size) :
    Puts size start bytes (copyInto start bytes.length bytes) where
  fits := fits
  run_eq contents same := by
    subst same
    have window : contents.window start bytes.length =
        .ok (contents.bytesFrom start bytes.length) := if_pos fits
    simp only [copyInto, run_bind, Edit.contents, window, if_true]
    exact (splice_puts fits).run_eq contents rfl

/-- A value written over a chunk as wide as its kind puts its bytes there. -/
theorem putOver_puts {size start : Nat} {kind : Kind} (value : kind.Carrier)
    (fits : start + kind.size ≤ size) :
    Puts size start (kind.encode value) (putOver kind start kind.size value) where
  fits := by rwa [Kind.length_encode]
  run_eq contents same := by
    subst same
    have window : contents.window start kind.size = .ok (contents.bytesFrom start kind.size) :=
      if_pos fits
    have image : kind.encodeInto value (contents.bytesFrom start kind.size) =
        .ok (kind.encode value) := by
      rw [Kind.encodeInto, Kind.overwrite_of_length value (contents.length_bytesFrom _ _)]
    simp only [putOver, run_bind, Edit.contents, window, ofExcept, Edit.pure, image]
    exact (splice_puts (by rwa [Kind.length_encode])).run_eq contents rfl

/-- Chunk after chunk, as many values are written as there are chunks, and the others are left
out. -/
theorem run_putChunks {kind : Kind} {start count : Nat} {values : List kind.Carrier}
    {contents : Buffer} (inside : start + count ≤ contents.size) :
    (putChunks kind start count values).run contents =
      .ok () (contents.writeAt start (kind.encodeAll (values.take (count / kind.size)))) := by
  induction values generalizing start count contents with
  | nil =>
      rw [List.take_nil]
      rfl
  | cons value rest ih =>
      by_cases chunk : kind.size ≤ count
      · have put := (putOver_puts value (by omega : start + kind.size ≤ contents.size)).run_eq
          contents rfl
        have later : start + kind.size + (count - kind.size) ≤
            (contents.writeAt start (kind.encode value)).size := by
          rw [Buffer.size_writeAt]
          omega
        have chunks : count / kind.size = (count - kind.size) / kind.size + 1 :=
          Nat.div_eq_sub_div kind.size_pos chunk
        rw [putChunks, if_pos chunk, run_bind, put]
        simp only [ih later]
        rw [chunks, List.take_succ_cons, Kind.encodeAll_cons, Buffer.writeAt_append,
          Kind.length_encode]
      · rw [putChunks, if_neg chunk, Nat.div_eq_of_lt (Nat.lt_of_not_le chunk), List.take_zero]
        rfl

/-- Values are written over a run of bytes if it lies inside the record, and only then. -/
theorem run_putAll (kind : Kind) (start count : Nat) (values : List kind.Carrier)
    (contents : Buffer) :
    (putAll kind start count values).run contents =
      if start + count ≤ contents.size then
        .ok () (contents.writeAt start (kind.encodeAll (values.take (count / kind.size))))
      else
        .error .byteRange contents := by
  by_cases inside : start + count ≤ contents.size
  · have window : contents.window start count = .ok (contents.bytesFrom start count) :=
      if_pos inside
    simp only [putAll, run_bind, Edit.contents, window, if_pos inside]
    exact run_putChunks inside
  · have window : contents.window start count = .error .byteRange := if_neg inside
    simp only [putAll, run_bind, Edit.contents, window, if_neg inside]
    rfl

/-- As many values as there are chunks are all written. -/
theorem putAll_puts {size start : Nat} {kind : Kind} {values : List kind.Carrier}
    (fits : start + values.length * kind.size ≤ size) :
    Puts size start (kind.encodeAll values)
      (putAll kind start (values.length * kind.size) values) where
  fits := by rwa [Kind.length_encodeAll]
  run_eq contents same := by
    subst same
    rw [run_putAll, if_pos fits, Nat.mul_div_cancel _ kind.size_pos, List.take_length]

/-- A value is read as what its bytes stand for. -/
theorem run_get_of_inside {kind : Kind} {offset : Nat} {contents : Buffer}
    (inside : offset + kind.size ≤ contents.size) {value : kind.Carrier}
    (decoded : kind.decode (contents.bytesFrom offset kind.size) = .ok value) :
    (get kind offset).run contents = .ok value contents := by
  have window : contents.window offset kind.size = .ok (contents.bytesFrom offset kind.size) :=
    if_pos inside
  simp only [get, run_bind, Edit.contents, window, ofExcept, Edit.pure, decoded]

theorem run_get_of_outside {kind : Kind} {offset : Nat} {contents : Buffer}
    (outside : contents.size < offset + kind.size) :
    (get kind offset).run contents = .error .byteRange contents := by
  have window : contents.window offset kind.size = .error .byteRange :=
    if_neg (Nat.not_le.mpr outside)
  simp only [get, run_bind, Edit.contents, window]
  rfl

/-- An edit that returns on every record of a size. -/
def Returns (size : Nat) (edit : Edit Unit) : Prop :=
  ∀ contents, contents.size = size → ∃ left, edit.run contents = .ok () left

theorem Puts.returns {size start : Nat} {bytes : Bytes} {edit : Edit Unit}
    (puts : Puts size start bytes edit) : Returns size edit :=
  fun contents same => ⟨_, puts.run_eq contents same⟩

end Edit

/-! ## Rows inside a record -/

namespace Row

variable {kind : Kind} {row : Row kind} {size index : Nat}

/-- A value of a row lies inside the row. -/
theorem element_le (within : index < row.count) :
    row.offset + index * kind.size + kind.size ≤ row.offset + row.count * kind.size := by
  have next : (index + 1) * kind.size ≤ row.count * kind.size := Nat.mul_le_mul_right _ within
  rw [Nat.succ_mul] at next
  omega

/-- Values of a row lie apart. -/
theorem elements_apart (row : Row kind) {other : Nat} (different : other ≠ index) :
    row.offset + other * kind.size + kind.size ≤ row.offset + index * kind.size ∨
      row.offset + index * kind.size + kind.size ≤ row.offset + other * kind.size := by
  rcases Nat.lt_or_gt_of_ne different with before | after
  · have le : (other + 1) * kind.size ≤ index * kind.size := Nat.mul_le_mul_right _ before
    rw [Nat.succ_mul] at le
    omega
  · have le : (index + 1) * kind.size ≤ other * kind.size := Nat.mul_le_mul_right _ after
    rw [Nat.succ_mul] at le
    omega

theorem elementSpan_of_inside (inside : row.offset + row.count * kind.size ≤ size)
    (bounded : size < Address.limit) (within : index < row.count) :
    row.elementSpan index = .ok ⟨row.offset + index * kind.size, kind.size⟩ := by
  have position : row.offset + index * kind.size + kind.size < Address.limit := by
    have le := row.element_le within
    omega
  simp only [elementSpan, if_pos within, Span.check, Address.check, if_pos position]
  rfl

theorem span_of_inside (inside : row.offset + row.count * kind.size ≤ size)
    (bounded : size < Address.limit) :
    row.span = .ok ⟨row.offset, row.count * kind.size⟩ := by
  have position : row.offset + row.count * kind.size < Address.limit := by omega
  simp only [span, Span.check, Address.check, if_pos position]
  rfl

/-- Every value of a row inside the record is read. -/
theorem read_of_inside {record : Record}
    (inside : row.offset + row.count * kind.size ≤ record.contents.size)
    (bounded : record.contents.size < Address.limit) (within : index < row.count) :
    row.read record index =
      kind.decode (record.contents.bytesFrom (row.offset + index * kind.size) kind.size) := by
  have le := row.element_le within
  have window : record.contents.window (row.offset + index * kind.size) kind.size =
      .ok (record.contents.bytesFrom (row.offset + index * kind.size) kind.size) :=
    if_pos (by omega)
  simp only [read, elementSpan_of_inside inside bounded within, except_ok_bind, window]

/-- Writing one value of a row puts its bytes at its place. -/
theorem write_puts (inside : row.offset + row.count * kind.size ≤ size)
    (bounded : size < Address.limit) (within : index < row.count) (value : kind.Carrier) :
    (row.write index value).Puts size (row.offset + index * kind.size) (kind.encode value) := by
  have le := row.element_le within
  have put : (Edit.splice (row.offset + index * kind.size) (kind.encode value)).Puts size
      (row.offset + index * kind.size) (kind.encode value) :=
    Edit.splice_puts (by rw [Kind.length_encode]; omega)
  refine ⟨put.fits, ?_⟩
  intro contents same
  simp only [write, elementSpan_of_inside inside bounded within, Edit.run_bind,
    Edit.ofExcept, Edit.pure]
  exact put.run_eq contents same

end Row

namespace Point

variable (add : Binary64 → Binary64 → Binary64)

/-- A shift inside the record writes the sums over all its coordinates.  Each sum is made of a
coordinate as it was before the shift: those written on the way lie before the ones still to be
read. -/
theorem run_shiftFrom {delta coordinates : List Binary64} {offset : Nat} {contents : Buffer}
    (inside : offset + delta.length * Kind.f64.size ≤ contents.size)
    (decoded : Kind.f64.decodeAll delta.length
      (contents.bytesFrom offset (delta.length * Kind.f64.size)) = .ok coordinates) :
    (shiftFrom add offset delta).run contents = .ok () (contents.writeAt offset
      (Kind.f64.encodeAll (List.zipWith add coordinates delta))) := by
  induction delta generalizing offset coordinates contents with
  | nil =>
      cases decoded
      rfl
  | cons step rest ih =>
      rw [List.length_cons, Nat.succ_mul, Nat.add_comm (rest.length * _)] at inside decoded
      obtain ⟨current, others, rfl, first, later⟩ := Kind.decodeAll_succ_eq_ok_iff.mp decoded
      rw [Buffer.bytesFrom_add, List.take_left' (Buffer.length_bytesFrom _ _ _)] at first
      rw [Buffer.bytesFrom_add, List.drop_left' (Buffer.length_bytesFrom _ _ _)] at later
      have firstInside : offset + Kind.f64.size ≤ contents.size := by omega
      have fits : offset + (Kind.f64.encode (add current step)).length ≤ contents.size := by
        rwa [Kind.length_encode]
      have unwritten : (contents.writeAt offset (Kind.f64.encode (add current step))).bytesFrom
            (offset + Kind.f64.size) (rest.length * Kind.f64.size) =
          contents.bytesFrom (offset + Kind.f64.size) (rest.length * Kind.f64.size) :=
        Buffer.bytesFrom_writeAt_apart fits
          (Or.inr (Nat.le_of_eq (by rw [Kind.length_encode])))
      rw [← unwritten] at later
      have shifted := ih (by rw [Buffer.size_writeAt]; omega) later
      have got := Edit.run_get_of_inside firstInside first
      have put := (Edit.put_puts (add current step) firstInside).run_eq contents rfl
      simp only [shiftFrom, Edit.run_bind, got, put]
      rw [shifted, List.zipWith_cons_cons, Kind.encodeAll_cons, Buffer.writeAt_append,
        Kind.length_encode]

/-- A shift of as many coordinates as lie inside the record returns. -/
theorem shiftFrom_returns (delta : List Binary64) {offset size : Nat}
    (inside : offset + delta.length * Kind.f64.size ≤ size) :
    (shiftFrom add offset delta).Returns size := by
  rintro contents rfl
  obtain ⟨coordinates, decoded⟩ := Kind.f64.decodeAll_of_length
    (contents.length_bytesFrom offset (delta.length * Kind.f64.size))
  exact ⟨_, run_shiftFrom add inside decoded⟩

end Point

/-! ## Writes that fit -/

namespace FieldWrite

/-- A write through one of the chosen accessors, with an index below the length of the row, with
as many values as it has or with as many bytes as it takes. -/
def Fits (accessors : Accessors) : FieldWrite → Prop
  | @cell kind _ location _ => accessors.cell kind location
  | @cellImage kind location image => accessors.cell kind location ∧ image.length = kind.size
  | @element kind _ location index _ => accessors.row kind location ∧ index < location.count
  | @row kind _ location values =>
      accessors.row kind location ∧ values.length = location.count
  | @rowImage kind location image =>
      accessors.row kind location ∧ image.length = location.count * kind.size
  | position _ point values => accessors.point point ∧ values.length = point.dimension
  | coordinate point axis _ => accessors.point point ∧ axis < point.dimension
  | move point delta _ => accessors.point point ∧ delta.length = point.dimension
  | step point _ axis _ => accessors.point point ∧ axis < point.dimension

theorem Fits.mono {few many : Accessors} (among : few.Among many) {write : FieldWrite}
    (fits : write.Fits few) : write.Fits many := by
  cases write with
  | cell notice location value => exact among.cell _ _ fits
  | cellImage location image => exact ⟨among.cell _ _ fits.1, fits.2⟩
  | element notice location index value => exact ⟨among.row _ _ fits.1, fits.2⟩
  | row notice location values => exact ⟨among.row _ _ fits.1, fits.2⟩
  | rowImage location image => exact ⟨among.row _ _ fits.1, fits.2⟩
  | position notice point values => exact ⟨among.point _ fits.1, fits.2⟩
  | coordinate point axis value => exact ⟨among.point _ fits.1, fits.2⟩
  | move point delta add => exact ⟨among.point _ fits.1, fits.2⟩
  | step point direction axis add => exact ⟨among.point _ fits.1, fits.2⟩

/-- Where a write puts which bytes, if that does not depend on the record. -/
def patch? : FieldWrite → Option (Nat × Bytes)
  | @cell kind _ location value => some (location.offset, kind.encode value)
  | cellImage location image => some (location.offset, image)
  | @element kind _ location index value =>
      some (location.offset + index * kind.size, kind.encode value)
  | @row kind _ location values => some (location.offset, kind.encodeAll values)
  | rowImage location image => some (location.offset, image)
  | position _ point values => some (point.coordinates.offset, Kind.f64.encodeAll values)
  | coordinate point axis value =>
      some (point.coordinates.offset + axis * Kind.f64.size, Kind.f64.encode value)
  | move _ _ _ | step _ _ _ _ => none

section Plans

variable {size : Nat} {kind : Kind} {location : Row kind}

theorem planElement_puts (inside : location.offset + location.count * kind.size ≤ size)
    (bounded : size < Address.limit) {index : Nat} (within : index < location.count)
    (value : kind.Carrier) :
    ∃ edit, planElement location index value = .ok edit ∧
      edit.Puts size (location.offset + index * kind.size) (kind.encode value) := by
  refine ⟨location.write index value, ?_, location.write_puts inside bounded within value⟩
  simp only [planElement, location.elementSpan_of_inside inside bounded within]
  rfl

theorem planRow_puts (inside : location.offset + location.count * kind.size ≤ size)
    (bounded : size < Address.limit) {values : List kind.Carrier}
    (whole : values.length = location.count) :
    ∃ edit, planRow location values = .ok edit ∧
      edit.Puts size location.offset (kind.encodeAll values) := by
  refine ⟨Edit.putAll kind location.offset (values.length * kind.size) values, ?_,
    Edit.putAll_puts ?_⟩
  · simp only [planRow, if_pos whole, location.span_of_inside inside bounded]
    rw [whole]
    rfl
  · rw [whole]
    exact inside

/-- A write that fits and knows its bytes beforehand puts them at their place. -/
theorem plan_puts (bounded : size < Address.limit) {write : FieldWrite}
    (fits : write.Fits (.inside size)) {start : Nat} {bytes : Bytes}
    (patch : write.patch? = some (start, bytes)) (record : Except Fault Record) :
    ∃ edit, write.plan record = .ok edit ∧ edit.Puts size start bytes := by
  cases write with
  | cell notice location value =>
      cases patch
      refine ⟨location.write value, ?_, Edit.put_puts value fits⟩
      cases notice with
      | quiet => rfl
      | told =>
          have position : location.offset + Kind.size _ < Address.limit :=
            Nat.lt_of_le_of_lt fits bounded
          simp only [plan, Cell.span, Span.check, Address.check, if_pos position]
          rfl
  | cellImage location image =>
      cases patch
      obtain ⟨inside, length⟩ := fits
      refine ⟨_, rfl, ?_⟩
      rw [← length]
      exact Edit.copyInto_puts (by rw [length]; exact inside)
  | element notice location index value =>
      cases patch
      exact planElement_puts fits.1 bounded fits.2 value
  | row notice location values =>
      cases patch
      exact planRow_puts fits.1 bounded fits.2
  | rowImage location image =>
      cases patch
      obtain ⟨inside, length⟩ := fits
      refine ⟨Edit.copyInto location.offset bytes.length bytes, ?_, Edit.copyInto_puts ?_⟩
      · simp only [plan, location.span_of_inside inside bounded, length]
        rfl
      · rw [length]
        exact inside
  | position notice point values =>
      cases patch
      exact planRow_puts fits.1 bounded fits.2
  | coordinate point axis value =>
      cases patch
      exact planElement_puts fits.1 bounded fits.2 value
  | move point delta add => cases patch
  | step point direction axis add => cases patch

/-- A write that fits is planned, and its edit returns, whatever the record holds. -/
theorem plan_returns (bounded : size < Address.limit) {write : FieldWrite}
    (fits : write.Fits (.inside size)) {record : Record} (same : record.contents.size = size) :
    ∃ edit, write.plan (.ok record) = .ok edit ∧ edit.Returns size := by
  cases known : write.patch? with
  | some patch =>
      obtain ⟨edit, planned, puts⟩ := plan_puts bounded fits known (.ok record)
      exact ⟨edit, planned, puts.returns⟩
  | none =>
      cases write with
      | move point delta add =>
          obtain ⟨inside, whole⟩ := fits
          refine ⟨point.shift add delta, if_pos whole, Point.shiftFrom_returns add delta ?_⟩
          rw [whole]
          exact inside
      | step point direction axis add =>
          obtain ⟨inside, within⟩ := fits
          subst same
          obtain ⟨current, decoded⟩ := Kind.f64.decode_of_length
            (record.contents.length_bytesFrom
              (point.coordinates.offset + axis * Kind.f64.size) Kind.f64.size)
          have read := (point.coordinates.read_of_inside inside bounded within).trans decoded
          obtain ⟨edit, planned, puts⟩ :=
            planElement_puts inside bounded within (add current direction.step)
          refine ⟨edit, ?_, puts.returns⟩
          simp only [plan, except_ok_bind, read]
          exact planned
      | _ => cases known

end Plans

end FieldWrite

end RecordPool
