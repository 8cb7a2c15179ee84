import RecordPool.Fixtures
import RecordPool.Proofs.Pool.Reading
import RecordPool.Proofs.Pool.WriteFaults

/-!
# Paths to a field

A field is read as a whole or value by value, through a proxy, on a view of the record or from
its bytes, and all of these read the same values.  It is written as a whole, value by value in
any order, or by its bytes, and all of these leave the same records.

The bulk paths go through the bytes of the row from its start on, the others work out the place
of each value.  For writes the argument is that every value goes where the whole row would have
put it, so that nothing is left to differ once all of them are written.
-/

namespace RecordPool

namespace Row

variable {σ : Type} [Store σ] {kind : Kind}

/-- Writes values of a row in a record, each at its index. -/
def writeEach (row : Row kind) (assignments : List (kind.Carrier × Nat)) : Edit Unit :=
  assignments.forM fun (value, index) => row.write index value

/-- Writes values of a row through a proxy, each at its index, quietly. -/
def setEach (row : Row kind) (proxy : Proxy) (assignments : List (kind.Carrier × Nat)) :
    EStateM Fault (Pool σ) Unit :=
  assignments.forM fun (value, index) => row.set .quiet proxy index value

theorem writeEach_cons (row : Row kind) (value : kind.Carrier) (index : Nat)
    (rest : List (kind.Carrier × Nat)) :
    row.writeEach ((value, index) :: rest) = row.write index value >>= fun _ => row.writeEach rest :=
  rfl

theorem setEach_cons (row : Row kind) (proxy : Proxy) (value : kind.Carrier) (index : Nat)
    (rest : List (kind.Carrier × Nat)) :
    (row.setEach proxy ((value, index) :: rest) : EStateM Fault (Pool σ) Unit) =
      row.set .quiet proxy index value >>= fun _ => row.setEach proxy rest :=
  rfl

/-- The place of a value of a row. -/
def place (row : Row kind) (index : Nat) : Span :=
  ⟨row.offset + index * kind.size, kind.size⟩

variable {row : Row kind} {assignments : List (kind.Carrier × Nat)}

/-- Values that a record has at their places are taken over from it one after another. -/
theorem run_writeEach {target current : Buffer}
    (inside : row.offset + row.count * kind.size ≤ current.size)
    (bounded : current.size < Address.limit)
    (holds : ∀ value index, (value, index) ∈ assignments → index < row.count ∧
      target.bytesFrom (row.place index).start kind.size = kind.encode value) :
    (row.writeEach assignments).run current =
      .ok () (current.overlay target (assignments.map fun (_, index) => row.place index)) := by
  induction assignments generalizing current with
  | nil => rfl
  | cons assigned rest ih =>
      obtain ⟨value, index⟩ := assigned
      obtain ⟨within, image⟩ := holds value index List.mem_cons_self
      have put := (row.write_puts inside bounded within value).run_eq current rfl
      rw [← image] at put
      rw [writeEach_cons, Edit.run_bind, put]
      have size := current.size_writeAt (row.offset + index * kind.size)
        (target.bytesFrom (row.place index).start kind.size)
      exact ih (by rwa [size]) (by rwa [size])
        fun value index later => holds value index (List.mem_cons_of_mem _ later)

/-- Every byte of a row belongs to one of its values. -/
theorem exists_place {position : Nat} (started : row.offset ≤ position)
    (ending : position < row.offset + row.count * kind.size) :
    ∃ index < row.count, (row.place index).start ≤ position ∧
      position < (row.place index).stop := by
  have positive := kind.size_pos
  obtain ⟨skipped, rfl⟩ := Nat.exists_eq_add_of_le started
  have within : skipped < row.count * kind.size := by omega
  have below := Nat.div_mul_le_self skipped kind.size
  have above := Nat.lt_div_mul_add (a := skipped) positive
  refine ⟨skipped / kind.size, Nat.div_lt_of_lt_mul ?_, ?_, ?_⟩
  · rwa [Nat.mul_comm]
  · simp only [place]
    omega
  · simp only [place, Span.stop]
    omega

/-- All values of a row written in any order are the row written as a whole. -/
theorem run_writeEach_of_perm {values : List kind.Carrier} {contents : Buffer}
    (inside : row.offset + row.count * kind.size ≤ contents.size)
    (bounded : contents.size < Address.limit) (whole : values.length = row.count)
    (everyOrder : assignments.Perm values.zipIdx) :
    (row.writeEach assignments).run contents =
      .ok () (contents.writeAt row.offset (kind.encodeAll values)) := by
  have length : (kind.encodeAll values).length = row.count * kind.size := by
    rw [Kind.length_encodeAll, whole]
  have fits : row.offset + (kind.encodeAll values).length ≤ contents.size := by rwa [length]
  have size := contents.size_writeAt row.offset (kind.encodeAll values)
  have assigned {value : kind.Carrier} {index : Nat} :
      (value, index) ∈ assignments ↔ values[index]? = some value :=
    everyOrder.mem_iff.trans List.mem_zipIdx_iff_getElem?
  have holds : ∀ value index, (value, index) ∈ assignments → index < row.count ∧
      (contents.writeAt row.offset (kind.encodeAll values)).bytesFrom (row.place index).start
        kind.size = kind.encode value := by
    intro value index among
    have at_index := assigned.mp among
    have within : index < row.count := whole ▸ (List.getElem?_eq_some_iff.mp at_index).1
    have le := row.element_le within
    refine ⟨within, ?_⟩
    rw [← kind.take_drop_encodeAll at_index]
    exact Buffer.bytesFrom_writeAt_within fits (by rw [length]; omega)
  rw [run_writeEach inside bounded holds, Buffer.overlay_eq size.symm]
  · intro span member
    obtain ⟨⟨value, index⟩, among, rfl⟩ := List.mem_map.mp member
    have le := row.element_le (holds value index among).1
    rw [size]
    simp only [place, Span.stop]
    omega
  · intro position _ differs
    have covered : row.offset ≤ position ∧ position < row.offset + row.count * kind.size := by
      by_contra outside
      rw [Buffer.get_writeAt fits, length, if_neg outside] at differs
      exact differs rfl
    obtain ⟨index, within, covers⟩ := exists_place covered.1 covered.2
    have at_index : values[index]? = some values[index] := List.getElem?_eq_getElem (whole ▸ within)
    exact ⟨_, List.mem_map_of_mem (assigned.mpr at_index), covers⟩

end Row

/-- The walk along the axes reads the coordinates that lie there. -/
theorem Point.readFrom_of_inside {point : Point} {record : Record}
    (inside : point.coordinates.offset + point.dimension * Kind.f64.size ≤ record.contents.size)
    (bounded : record.contents.size < Address.limit) {axis count : Nat}
    (within : axis + count ≤ point.dimension) :
    point.readFrom record axis count = Kind.f64.decodeAll count (record.contents.bytesFrom
      (point.coordinates.offset + axis * Kind.f64.size) (count * Kind.f64.size)) := by
  induction count generalizing axis with
  | zero => rfl
  | succ count ih =>
      have here : axis < point.dimension := by omega
      have read := point.coordinates.read_of_inside inside bounded here
      have later := ih (by omega : axis + 1 + count ≤ point.dimension)
      rw [Nat.succ_mul, ← Nat.add_assoc] at later
      rw [Nat.succ_mul, Nat.add_comm (count * _), Buffer.bytesFrom_add]
      simp only [readFrom, Kind.decodeAll, List.take_left' (Buffer.length_bytesFrom _ _ _),
        List.drop_left' (Buffer.length_bytesFrom _ _ _), read, later]

namespace Pool

variable {σ : Type} [Store σ] {pool : Pool σ} {proxy : Proxy}

/-! ## Reads -/

/-- What is to hold of the reads through a proxy that shows a record. -/
structure ReadsAgree (pool : Pool σ) (proxy : Proxy) (record : Record) : Prop where
  /-- A single value is the same on the pool, on the record and in its bytes. -/
  cell : ∀ (kind : Kind) (cell : Cell kind), cell.offset + kind.size ≤ pool.layout.recordSize →
    ∃ value image, cell.get pool proxy = .ok value ∧ cell.read record = .ok value ∧
      record.get kind cell.offset = .ok value ∧ cell.image pool proxy = .ok image ∧
      kind.decode image = .ok value
  /-- All values of a row are those at its indices, on the pool, on the record and in its bytes. -/
  row : ∀ (kind : Kind) (row : Row kind),
    row.offset + row.count * kind.size ≤ pool.layout.recordSize → ∃ values images,
      row.valuesFor pool proxy row.count = .ok values ∧ values.length = row.count ∧
      row.image pool proxy = .ok images ∧ images.length = row.count * kind.size ∧
      ∀ index value, values[index]? = some value → row.get pool proxy index = .ok value ∧
        row.read record index = .ok value ∧
        kind.decode ((images.drop (index * kind.size)).take kind.size) = .ok value
  /-- A position is the same on the pool and on the record, and axis by axis. -/
  point : ∀ point : Point,
    point.coordinates.offset + point.dimension * Kind.f64.size ≤ pool.layout.recordSize →
      ∃ position, point.position pool proxy = .ok position ∧
        position.length = point.dimension ∧ point.read record = .ok position ∧
        ∀ axis value, position[axis]? = some value →
          point.coordinate pool proxy axis = .ok value

variable [LawfulStore σ]

theorem row_reads_agree (blocks : Store.InBlocks σ) (seated : pool.Seated)
    (reaches : pool.Reaches proxy) {kind : Kind} (row : Row kind)
    (inside : row.offset + row.count * kind.size ≤ pool.layout.recordSize) :
    ∃ values, row.valuesFor pool proxy row.count = .ok values ∧ values.length = row.count ∧
      kind.decodeAll row.count ((pool.shown proxy.index).contents.bytesFrom row.offset
        (row.count * kind.size)) = .ok values ∧
      ∀ index value, values[index]? = some value → row.get pool proxy index = .ok value ∧
        row.read (pool.shown proxy.index) index = .ok value := by
  have bounded := reaches.bounded blocks seated
  have size := seated.size_shown proxy.index
  obtain ⟨values, decoded⟩ := kind.decodeAll_of_length
    ((pool.shown proxy.index).contents.length_bytesFrom row.offset (row.count * kind.size))
  have length := Kind.length_of_decodeAll decoded
  refine ⟨values, (row_values_eq blocks seated bounded reaches inside).trans decoded, length,
    decoded, ?_⟩
  intro index value at_index
  have within : index < row.count := length ▸ (List.getElem?_eq_some_iff.mp at_index).1
  have le := row.element_le within
  have one := Kind.decode_of_decodeAll decoded at_index
  rw [Buffer.take_drop_bytesFrom _ (by omega)] at one
  have read : row.read (pool.shown proxy.index) index = _ :=
    row.read_of_inside (by rwa [size]) (by rwa [size]) within
  exact ⟨(row_get_eq seated bounded reaches inside within).trans one, read.trans one⟩

theorem readsAgree (blocks : Store.InBlocks σ) (seated : pool.Seated)
    (reaches : pool.Reaches proxy) : ReadsAgree pool proxy (pool.shown proxy.index) := by
  have bounded := reaches.bounded blocks seated
  have size := seated.size_shown proxy.index
  constructor
  case cell =>
    intro kind cell inside
    obtain ⟨value, decoded⟩ := kind.decode_of_length
      ((pool.shown proxy.index).contents.length_bytesFrom cell.offset kind.size)
    have read : (pool.shown proxy.index).get kind cell.offset = .ok value := by
      simp only [Record.get, window_shown seated inside, except_ok_bind, decoded]
    exact ⟨value, _, (cell_get_eq seated reaches inside).trans decoded, read, read,
      cell_image_eq seated reaches inside, decoded⟩
  case row =>
    intro kind row inside
    obtain ⟨values, read, length, decoded, each⟩ := row_reads_agree blocks seated reaches row inside
    refine ⟨values, _, read, length, row_image_eq seated bounded reaches inside,
      Buffer.length_bytesFrom _ _ _, ?_⟩
    intro index value at_index
    obtain ⟨got, onRecord⟩ := each index value at_index
    exact ⟨got, onRecord, Kind.decode_of_decodeAll decoded at_index⟩
  case point =>
    intro point inside
    obtain ⟨position, read, length, decoded, each⟩ :=
      row_reads_agree blocks seated reaches point.coordinates inside
    refine ⟨position, read, length, ?_, fun axis value at_axis => (each axis value at_axis).1⟩
    have walked : point.read (pool.shown proxy.index) = _ :=
      point.readFrom_of_inside (by rwa [size]) (by rwa [size]) (Nat.zero_add point.dimension).le
    rw [Nat.zero_mul, Nat.add_zero] at walked
    exact walked.trans decoded

/-! ## Writes -/

/-- What is to hold of the ways to write all values of a row through a proxy. -/
structure WritesAgree (pool : Pool σ) (proxy : Proxy) {kind : Kind} (row : Row kind)
    (values : List kind.Carrier) (whole : Pool σ) : Prop where
  /-- The values are written as a whole. -/
  written : row.setAll .quiet proxy values pool = .ok () whole
  /-- Written one by one in any order, they leave the same records. -/
  each : ∀ assignments, List.Perm assignments values.zipIdx → ∃ after,
    row.setEach proxy assignments pool = .ok () after ∧ SameRecords whole after
  /-- Written on the record, they leave it as it is in the pool. -/
  onRecord : ∀ assignments, List.Perm assignments values.zipIdx → ∃ record left,
    pool.view proxy = .ok record ∧ (row.writeEach assignments).run record.contents = .ok () left ∧
      whole.view proxy = .ok ⟨proxy.index, left⟩
  /-- So do their bytes. -/
  image : ∃ after, row.setImage proxy (kind.encodeAll values) pool = .ok () after ∧
    SameRecords whole after
  /-- So do the values when listeners are told, unless one of these ends in a fault: then the
  records are the same, or as they were. -/
  told : (∃ after, row.setAll .told proxy values pool = .ok () after ∧ SameRecords whole after) ∨
    ∃ fault left record, row.setAll .told proxy values pool = .error fault left ∧
      ListenerFaults pool record fault ∧ (SameRecords whole left ∨ SameRecords pool left)

/-- A quiet write that fits and knows its bytes beforehand puts them at their place. -/
theorem writeField_quiet (seated : pool.Seated) (bounded : pool.layout.recordSize < Address.limit)
    (reaches : pool.Reaches proxy) (write : FieldWrite)
    (fits : write.Fits (.inside pool.layout.recordSize)) (quiet : write.notice = .quiet)
    {start : Nat} {bytes : Bytes} (patch : write.patch? = some (start, bytes)) :
    ∃ after, writeField proxy write pool = .ok () after ∧ Edited pool after proxy.index
      ((pool.shown proxy.index).contents.writeAt start bytes) := by
  rcases writeField_of_patch seated bounded reaches.own reaches.inside fits patch with
    done | ⟨told, -⟩
  · exact done
  · rw [quiet] at told
    cases told

/-- Values set one after another make of the record what they make of it when written to it. -/
theorem setEach_ok (seated : pool.Seated) (bounded : pool.layout.recordSize < Address.limit)
    (reaches : pool.Reaches proxy) {kind : Kind} {row : Row kind}
    (inside : row.offset + row.count * kind.size ≤ pool.layout.recordSize)
    {assignments : List (kind.Carrier × Nat)}
    (within : ∀ value index, (value, index) ∈ assignments → index < row.count) {left : Buffer}
    (ran : (row.writeEach assignments).run (pool.shown proxy.index).contents = .ok () left) :
    ∃ after, row.setEach proxy assignments pool = .ok () after ∧
      Edited pool after proxy.index left := by
  induction assignments generalizing pool with
  | nil =>
      cases ran
      exact ⟨pool, rfl, Edited.refl seated proxy.index⟩
  | cons assigned rest ih =>
      obtain ⟨value, index⟩ := assigned
      have here := within value index List.mem_cons_self
      have put := (row.write_puts inside bounded here value).run_eq _
        (seated.size_shown proxy.index)
      rw [Row.writeEach_cons, Edit.run_bind, put] at ran
      obtain ⟨middle, first, edited⟩ := writeField_quiet seated bounded reaches
        (.element .quiet row index value) ⟨inside, here⟩ rfl rfl
      rw [← edited.layout_eq] at bounded inside
      have shown : (middle.shown proxy.index).contents = (pool.shown proxy.index).contents.writeAt
          (row.offset + index * kind.size) (kind.encode value) :=
        congrArg Record.contents edited.shown_self
      rw [← shown] at ran
      obtain ⟨after, later, editedLater⟩ := ih (edited.seated seated) bounded
        (reaches.edited edited) inside
        (fun value index among => within value index (List.mem_cons_of_mem _ among)) ran
      refine ⟨after, ?_, edited.trans editedLater⟩
      change row.set .quiet proxy index value pool = .ok () middle at first
      rw [Row.setEach_cons, bind_apply, first]
      exact later

theorem writesAgree (blocks : Store.InBlocks σ) (seated : pool.Seated)
    (reaches : pool.Reaches proxy) {kind : Kind} {row : Row kind}
    (inside : row.offset + row.count * kind.size ≤ pool.layout.recordSize)
    {values : List kind.Carrier} (length : values.length = row.count) :
    ∃ whole, WritesAgree pool proxy row values whole := by
  have bounded := reaches.bounded blocks seated
  have size := seated.size_shown proxy.index
  obtain ⟨whole, written, edited⟩ := writeField_quiet seated bounded reaches
    (.row .quiet row values) ⟨inside, length⟩ rfl rfl
  have ran {assignments : List (kind.Carrier × Nat)}
      (everyOrder : assignments.Perm values.zipIdx) :
      (row.writeEach assignments).run (pool.shown proxy.index).contents =
        .ok () ((pool.shown proxy.index).contents.writeAt row.offset (kind.encodeAll values)) :=
    row.run_writeEach_of_perm (by rwa [size]) (by rwa [size]) length everyOrder
  refine ⟨whole, ?_⟩
  constructor
  case written => exact written
  case each =>
    intro assignments everyOrder
    have within : ∀ value index, (value, index) ∈ assignments → index < row.count := by
      intro value index among
      have at_index := List.mem_zipIdx_iff_getElem?.mp (everyOrder.mem_iff.mp among)
      exact length ▸ (List.getElem?_eq_some_iff.mp at_index).1
    obtain ⟨after, done, editedEach⟩ :=
      setEach_ok seated bounded reaches inside within (ran everyOrder)
    exact ⟨after, done, edited.sameRecords editedEach seated⟩
  case onRecord =>
    intro assignments everyOrder
    have shown := (edited.seated seated).record_eq (reaches.edited edited).inside
    rw [edited.shown_self] at shown
    exact ⟨_, _, seated.record_eq reaches.inside, ran everyOrder, shown⟩
  case image =>
    have image : (kind.encodeAll values).length = row.count * kind.size := by
      rw [Kind.length_encodeAll, length]
    obtain ⟨after, done, editedImage⟩ := writeField_quiet seated bounded reaches
      (.rowImage row (kind.encodeAll values)) ⟨inside, image⟩ rfl rfl
    exact ⟨after, done, edited.sameRecords editedImage seated⟩
  case told =>
    have fits : (FieldWrite.row .told row values).Fits (.inside pool.layout.recordSize) :=
      ⟨inside, length⟩
    rcases writeField_of_patch seated bounded reaches.own reaches.inside fits rfl with
      ⟨after, done, editedTold⟩ | ⟨-, fault, left, failed, record, -, faults⟩
    · exact Or.inl ⟨after, done, edited.sameRecords editedTold seated⟩
    · refine Or.inr ⟨fault, left, record, failed, faults, ?_⟩
      have cases := edited_of_patch seated bounded reaches.own fits rfl
      rw [failed] at cases
      rcases cases with editedTold | unchanged
      · exact Or.inl (edited.sameRecords editedTold seated)
      · exact Or.inr ((Edited.refl seated proxy.index).sameRecords unchanged seated)

/-- At all times, every way to read a field inside the record that a proxy points at reads the
same values, and every way to write all values of a row leaves the same records. -/
theorem access_paths_agree (commands : List Command) (proxy : Proxy) :
    OfEveryKind fun _ _ _ opened => (opened.run commands).2.Reaches proxy →
      (∃ record, (opened.run commands).2.view proxy = .ok record ∧
        ReadsAgree (opened.run commands).2 proxy record) ∧
      ∀ (kind : Kind) (row : Row kind) (values : List kind.Carrier),
        row.offset + row.count * kind.size ≤ opened.layout.recordSize →
          values.length = row.count →
            ∃ whole, WritesAgree (opened.run commands).2 proxy row values whole := by
  apply ofEveryRunSeated
  intro σ _ _ opened blocks seatedOpened orderly reaches
  have seated := seatedOpened.run orderly commands
  refine ⟨⟨_, seated.record_eq reaches.inside, readsAgree blocks seated reaches⟩, ?_⟩
  intro kind row values inside length
  rw [← run_layout opened commands] at inside
  exact writesAgree blocks seated reaches inside length

/-- The position of a particle written from the last axis to the first. -/
theorem particle_access_paths_agree :
    ∃ layout pool row, Fixture.particle.layout = .ok layout ∧
      ofConfig ⟨0⟩ layout {} = .ok pool ∧ layout.row "pos" .f64 = .ok row ∧
      let created := (pool.run [.create (.unbound ⟨0⟩)]).2
      let values : List Binary64 := [.zero, .one, .minusOne]
      created.Reaches ⟨⟨0⟩, 0⟩ ∧ row.offset + row.count * Kind.f64.size ≤ pool.layout.recordSize ∧
        values.length = row.count ∧ values.zipIdx.reverse.Perm values.zipIdx ∧
        ∃ record whole after, created.view ⟨⟨0⟩, 0⟩ = .ok record ∧
          ReadsAgree created ⟨⟨0⟩, 0⟩ record ∧
          row.setAll .quiet ⟨⟨0⟩, 0⟩ values created = .ok () whole ∧
          row.setEach ⟨⟨0⟩, 0⟩ values.zipIdx.reverse created = .ok () after ∧
          SameRecords whole after := by
  have opened : ∃ layout pool row, Fixture.particle.layout = .ok layout ∧
      ofConfig ⟨0⟩ layout {} = .ok pool ∧ layout.row "pos" .f64 = .ok row ∧
      (pool.run [.create (.unbound ⟨0⟩)]).2.Reaches ⟨⟨0⟩, 0⟩ ∧
      row.offset + row.count * Kind.f64.size ≤ pool.layout.recordSize ∧ row.count = 3 :=
    ⟨_, _, _, rfl, rfl, rfl, ⟨rfl, by decide⟩, by decide, rfl⟩
  rcases opened with ⟨layout, pool, row, built, opened, found, reaches, inside, three⟩
  have reversed := List.reverse_perm (List.zipIdx [Binary64.zero, .one, .minusOne])
  obtain ⟨⟨record, shown, reads⟩, writes⟩ :=
    (access_paths_agree _ _).1 _ _ _ _ _ opened reaches
  obtain ⟨whole, agree⟩ := writes .f64 row [.zero, .one, .minusOne] inside three.symm
  obtain ⟨after, set, same⟩ := agree.each _ reversed
  exact ⟨layout, pool, row, built, opened, found, reaches, inside, three.symm, reversed, record,
    whole, after, shown, reads, agree.written, set, same⟩

end Pool

end RecordPool
