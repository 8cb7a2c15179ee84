import RecordPool.Fixtures
import RecordPool.Proofs.Pool.Reading

/-!
# Fields do not disturb each other

A write to a field of one record is read back, and leaves every other record, every other
field and every value of the field that it does not write over as they were.  So two writes
to different places can be made in either order.
-/

namespace RecordPool

namespace FieldWrite

/-- The first of the values of its field that a write writes over. -/
def first : FieldWrite → Nat
  | element _ _ index _ => index
  | coordinate _ axis _ | step _ _ axis _ => axis
  | cell _ _ _ | cellImage _ _ | row _ _ _ | rowImage _ _ | position _ _ _
  | move _ _ _ => 0

/-- The number of values of its field that a write writes over. -/
def number : FieldWrite → Nat
  | row _ location _ | rowImage location _ => location.count
  | position _ point _ | move point _ _ => point.dimension
  | cell _ _ _ | cellImage _ _ | element _ _ _ _ | coordinate _ _ _ | step _ _ _ _ => 1

/-- Whether a write writes over a value of its field. -/
def Covers (write : FieldWrite) (element : Nat) : Prop :=
  write.first ≤ element ∧ element < write.first + write.number

/-- A write through an accessor of a field puts bytes over values of that field. -/
structure Lands (write : FieldWrite) (field : Field) (bytes : Bytes) : Prop where
  patch_eq : write.patch? = some (field.offset + write.first * field.kind.size, bytes)
  length_eq : bytes.length = write.number * field.kind.size
  within : write.first + write.number ≤ field.count
  number_pos : 0 < write.number

section Places

variable {declarations : List Declaration} {layout : Layout} {field : Field}

open Layout

theorem exists_lands (built : ofDeclarations declarations = .ok layout)
    (among : field ∈ layout.fields) {write : FieldWrite}
    (fits : write.Fits (layout.accessorsOf declarations field)) :
    ∃ bytes, write.Lands field bytes := by
  have inhabited := count_pos_of_built built among
  cases write with
  | cell notice location value =>
      obtain ⟨rfl, single, offset⟩ := HasCell.place built among fits
      exact ⟨field.kind.encode value, {
        patch_eq := by simp [patch?, first, offset]
        length_eq := by simp [number]
        within := by simp [first, number, single]
        number_pos := Nat.one_pos }⟩
  | cellImage location image =>
      obtain ⟨held, length⟩ := fits
      obtain ⟨rfl, single, offset⟩ := HasCell.place built among held
      exact ⟨image, {
        patch_eq := by simp [patch?, first, offset]
        length_eq := by simp [number, length]
        within := by simp [first, number, single]
        number_pos := Nat.one_pos }⟩
  | element notice location index value =>
      obtain ⟨held, inside⟩ := fits
      obtain ⟨rfl, count, offset⟩ := HasRow.place built among held
      exact ⟨field.kind.encode value, {
        patch_eq := by simp [patch?, first, offset]
        length_eq := by simp [number]
        within := by simp only [first, number]; omega
        number_pos := Nat.one_pos }⟩
  | row notice location values =>
      obtain ⟨held, whole⟩ := fits
      obtain ⟨rfl, count, offset⟩ := HasRow.place built among held
      exact ⟨field.kind.encodeAll values, {
        patch_eq := by simp [patch?, first, offset]
        length_eq := by simp [number, whole]
        within := by simp [first, number, count]
        number_pos := by simp only [number]; omega }⟩
  | rowImage location image =>
      obtain ⟨held, length⟩ := fits
      obtain ⟨rfl, count, offset⟩ := HasRow.place built among held
      exact ⟨image, {
        patch_eq := by simp [patch?, first, offset]
        length_eq := by simp [number, length]
        within := by simp [first, number, count]
        number_pos := by simp only [number]; omega }⟩
  | position notice point values => exact fits.1.elim
  | coordinate point axis value => exact fits.1.elim
  | move point delta add => exact fits.1.elim
  | step point direction axis add => exact fits.1.elim

end Places

/-- Values that come before another one lie before it. -/
theorem values_le {first number other : Nat} (before : first + number ≤ other) (size : Nat) :
    first * size + number * size ≤ other * size := by
  rw [← Nat.add_mul]
  exact Nat.mul_le_mul_right size before

theorem Lands.bytes_eq {write : FieldWrite} {field : Field} {bytes given : Bytes} {start : Nat}
    (lands : write.Lands field bytes) (patch : write.patch? = some (start, given)) :
    bytes = given := by
  rw [lands.patch_eq] at patch
  cases patch
  rfl

/-- The bytes that a write puts lie in its field. -/
theorem Lands.inside {write : FieldWrite} {field : Field} {bytes : Bytes}
    (lands : write.Lands field bytes) :
    field.offset + write.first * field.kind.size + bytes.length ≤ field.stop := by
  have le := values_le lands.within field.kind.size
  rw [lands.length_eq, Field.stop, Layout.field_size_eq]
  omega

end FieldWrite

/-! ## What a write leaves as it was -/

namespace Field

/-- The bytes of a field. -/
def image (field : Field) (contents : Buffer) : Bytes :=
  contents.bytesFrom field.offset field.size

theorem length_image (field : Field) (contents : Buffer) :
    (field.image contents).length = field.size :=
  contents.length_bytesFrom field.offset field.size

/-- The bytes of one value of a field. -/
def valueImage (field : Field) (contents : Buffer) (element : Nat) : Bytes :=
  contents.bytesFrom (field.offset + element * field.kind.size) field.kind.size

end Field

namespace FieldWrite

/-- A write to a field changes none of the values of it that it does not cover, and nothing of
the other fields. -/
structure LeavesOthers (write : FieldWrite) (layout : Layout) (field : Field)
    (old new : Buffer) : Prop where
  size_eq : new.size = old.size
  elements : ∀ element < field.count, ¬ write.Covers element →
    field.valueImage new element = field.valueImage old element
  fields : ∀ other ∈ layout.fields, other ≠ field → other.image new = other.image old

section Effects

variable {declarations : List Declaration} {layout : Layout} {field : Field}
  {write : FieldWrite} {bytes : Bytes} {contents : Buffer}

open Layout

theorem leavesOthers_writeAt (built : ofDeclarations declarations = .ok layout)
    (among : field ∈ layout.fields) (lands : write.Lands field bytes)
    (size : contents.size = layout.recordSize) :
    write.LeavesOthers layout field contents
      (contents.writeAt (field.offset + write.first * field.kind.size) bytes) := by
  have inside := lands.inside
  have fits : field.offset + write.first * field.kind.size + bytes.length ≤ contents.size := by
    rw [size]
    exact Nat.le_trans inside (stop_le_of_built built among)
  constructor
  case size_eq => exact Buffer.size_writeAt _ _ _
  case elements =>
    intro element _ uncovered
    apply Buffer.bytesFrom_writeAt_apart fits
    rw [lands.length_eq]
    rcases Nat.lt_or_ge element write.first with before | notBefore
    · have next : element + 1 ≤ write.first := before
      have le := values_le next field.kind.size
      omega
    · have after : write.first + write.number ≤ element := by
        unfold Covers at uncovered
        omega
      have le := values_le after field.kind.size
      omega
  case fields =>
    intro other amongOther different
    apply Buffer.bytesFrom_writeAt_apart fits
    have apart := apart_of_built built among amongOther different
    simp only [Field.stop] at apart inside
    omega

/-- Writes to different fields, or to different values of one, put their bytes at places that lie
apart. -/
theorem Lands.apart (built : ofDeclarations declarations = .ok layout) {other : Field}
    {write' : FieldWrite} {bytes' : Bytes} (among : field ∈ layout.fields)
    (amongOther : other ∈ layout.fields) (lands : write.Lands field bytes)
    (landsOther : write'.Lands other bytes')
    (different : other ≠ field ∨ ∀ element, ¬ (write.Covers element ∧ write'.Covers element)) :
    other.offset + write'.first * other.kind.size + bytes'.length ≤
        field.offset + write.first * field.kind.size ∨
      field.offset + write.first * field.kind.size + bytes.length ≤
        other.offset + write'.first * other.kind.size := by
  by_cases same : other = field
  · subst same
    have disjoint := different.resolve_left (absurd rfl)
    have one := lands.number_pos
    have oneOther := landsOther.number_pos
    have ordered : write'.first + write'.number ≤ write.first ∨
        write.first + write.number ≤ write'.first := by
      -- Where they met, the later of the first values would be covered by both.
      have met := disjoint (max write.first write'.first)
      unfold Covers at met
      omega
    rw [lands.length_eq, landsOther.length_eq]
    rcases ordered with before | after
    · have le := values_le before other.kind.size
      omega
    · have le := values_le after other.kind.size
      omega
  · have inside := lands.inside
    have insideOther := landsOther.inside
    have apart := apart_of_built built among amongOther same
    omega

end Effects

end FieldWrite

namespace Pool

variable {σ : Type} [Store σ]

/-! ## What is read back -/

/-- The accessors of a field read this at an index. -/
structure Shows (accessors : Accessors) (pool : Pool σ) (proxy : Proxy) (kind : Kind)
    (index : Nat) (value : kind.Carrier) : Prop where
  cell : ∀ cell, accessors.cell kind cell → index = 0 → cell.get pool proxy = .ok value
  row : ∀ row, accessors.row kind row → row.get pool proxy index = .ok value

/-- The accessors of a field read these bytes. -/
structure ShowsImage (accessors : Accessors) (pool : Pool σ) (proxy : Proxy) (kind : Kind)
    (image : Bytes) : Prop where
  cell : ∀ cell, accessors.cell kind cell → cell.image pool proxy = .ok image
  row : ∀ row, accessors.row kind row → row.image pool proxy = .ok image

/-- What has been written is read back, whichever accessor of the field is used. -/
def ReadsBack (accessors : Accessors) (pool : Pool σ) (proxy : Proxy) : FieldWrite → Prop
  | @FieldWrite.cell kind _ _ value => Shows accessors pool proxy kind 0 value
  | @FieldWrite.cellImage kind _ image => ShowsImage accessors pool proxy kind image
  | @FieldWrite.element kind _ _ index value => Shows accessors pool proxy kind index value
  | @FieldWrite.row kind _ _ values =>
      (∀ index value, values[index]? = some value →
        Shows accessors pool proxy kind index value) ∧
      ∀ row, accessors.row kind row → row.values pool proxy = .ok values
  | @FieldWrite.rowImage kind _ image => ShowsImage accessors pool proxy kind image
  -- Points are not among the accessors of one field.
  | .position _ _ _ | .coordinate _ _ _ | .move _ _ _ | .step _ _ _ _ => True

/-- A write to a field of one record is read back, and leaves all that it does not write over
as it was. -/
structure WroteOnly (declarations : List Declaration) (before after : Pool σ) (proxy : Proxy)
    (field : Field) (write : FieldWrite) : Prop where
  readsBack : ReadsBack (before.layout.accessorsOf declarations field) after proxy write
  record : ∃ old new, before.record proxy.index = .ok ⟨proxy.index, old⟩ ∧
    after.record proxy.index = .ok ⟨proxy.index, new⟩ ∧
      write.LeavesOthers before.layout field old new
  others : ∀ other, other ≠ proxy.index → after.record other = before.record other

variable [LawfulStore σ] {pool : Pool σ} {proxy : Proxy} {declarations : List Declaration}
  {field : Field}

open Layout LawfulStore

theorem shows_of_bytesFrom (built : ofDeclarations declarations = .ok pool.layout)
    (among : field ∈ pool.layout.fields) (seated : pool.Seated) (reaches : pool.Reaches proxy)
    {index : Nat} (within : index < field.count) {value : field.kind.Carrier}
    (bytes : (pool.shown proxy.index).contents.bytesFrom
      (field.offset + index * field.kind.size) field.kind.size = field.kind.encode value) :
    Shows (pool.layout.accessorsOf declarations field) pool proxy field.kind index value := by
  have inside := values_le_of_built built among
  constructor
  case cell =>
    rintro cell held rfl
    obtain ⟨-, single, offset⟩ := HasCell.place built among held
    rw [single, Nat.one_mul, ← offset] at inside
    rw [Nat.zero_mul, Nat.add_zero, ← offset] at bytes
    rw [cell_get_eq seated reaches inside, bytes, Kind.decode_encode]
  case row =>
    intro row held
    obtain ⟨-, count, offset⟩ := HasRow.place built among held
    rw [← count, ← offset] at inside
    rw [← offset] at bytes
    rw [← count] at within
    rw [row_get_eq seated (recordSize_lt_of_built built) reaches inside within, bytes,
      Kind.decode_encode]

theorem showsImage_of_bytesFrom (built : ofDeclarations declarations = .ok pool.layout)
    (among : field ∈ pool.layout.fields) (seated : pool.Seated) (reaches : pool.Reaches proxy)
    {image : Bytes} (bytes : field.image (pool.shown proxy.index).contents = image) :
    ShowsImage (pool.layout.accessorsOf declarations field) pool proxy field.kind image := by
  have inside := values_le_of_built built among
  rw [Field.image, field_size_eq] at bytes
  constructor
  case cell =>
    intro cell held
    obtain ⟨-, single, offset⟩ := HasCell.place built among held
    rw [single, Nat.one_mul, ← offset] at inside bytes
    rw [cell_image_eq seated reaches inside, bytes]
  case row =>
    intro row held
    obtain ⟨-, count, offset⟩ := HasRow.place built among held
    rw [← count, ← offset] at inside bytes
    rw [row_image_eq seated (recordSize_lt_of_built built) reaches inside, bytes]

/-- Bytes that a write has put where it lands are read back. -/
theorem readsBack_of_lands (built : ofDeclarations declarations = .ok pool.layout)
    (among : field ∈ pool.layout.fields) (blocks : Store.InBlocks σ) (seated : pool.Seated)
    (reaches : pool.Reaches proxy) {write : FieldWrite} {bytes : Bytes} {old : Buffer}
    (fits : write.Fits (pool.layout.accessorsOf declarations field))
    (lands : write.Lands field bytes) (size : old.size = pool.layout.recordSize)
    (written : (pool.shown proxy.index).contents =
      old.writeAt (field.offset + write.first * field.kind.size) bytes) :
    ReadsBack (pool.layout.accessorsOf declarations field) pool proxy write := by
  have fitsOld : field.offset + write.first * field.kind.size + bytes.length ≤ old.size := by
    rw [size]
    exact Nat.le_trans lands.inside (stop_le_of_built built among)
  -- All that was put, as the record has it now; each kind of write finds its own part in it.
  have whole := Buffer.bytesFrom_writeAt fitsOld
  rw [← written, lands.length_eq] at whole
  cases write with
  | cell notice location value =>
      obtain ⟨rfl, single, -⟩ := HasCell.place built among fits
      rw [FieldWrite.number, FieldWrite.first, Nat.one_mul, lands.bytes_eq rfl] at whole
      exact shows_of_bytesFrom built among seated reaches (by omega) whole
  | cellImage location image =>
      obtain ⟨rfl, single, -⟩ := HasCell.place built among fits.1
      rw [FieldWrite.number, FieldWrite.first, Nat.zero_mul, Nat.add_zero, ← single,
        ← field_size_eq, lands.bytes_eq rfl] at whole
      exact showsImage_of_bytesFrom built among seated reaches whole
  | element notice location index value =>
      obtain ⟨rfl, count, -⟩ := HasRow.place built among fits.1
      rw [FieldWrite.number, FieldWrite.first, Nat.one_mul, lands.bytes_eq rfl] at whole
      exact shows_of_bytesFrom built among seated reaches (count ▸ fits.2) whole
  | row notice location values =>
      obtain ⟨held, full⟩ := fits
      obtain ⟨rfl, count, -⟩ := HasRow.place built among held
      obtain rfl : bytes = field.kind.encodeAll values := lands.bytes_eq rfl
      rw [FieldWrite.first, Nat.zero_mul, Nat.add_zero] at fitsOld written
      constructor
      · intro index value at_index
        obtain ⟨within, -⟩ := List.getElem?_eq_some_iff.mp at_index
        have le := Nat.mul_le_mul_right field.kind.size (Nat.succ_le_of_lt within)
        rw [← field.kind.length_encodeAll values, Nat.succ_mul] at le
        have part := Buffer.bytesFrom_writeAt_within fitsOld le
        rw [← written, Kind.take_drop_encodeAll _ at_index] at part
        exact shows_of_bytesFrom built among seated reaches (by omega) part
      · intro row heldAgain
        obtain ⟨-, countAgain, offset⟩ := HasRow.place built among heldAgain
        have same : row.count = values.length := by omega
        have inside := values_le_of_built built among
        rw [← countAgain, ← offset] at inside
        rw [FieldWrite.number, FieldWrite.first, Nat.zero_mul, Nat.add_zero, ← full,
          ← offset] at whole
        rw [Row.values, row_values_eq blocks seated (recordSize_lt_of_built built) reaches inside,
          same, whole, Kind.decodeAll_encodeAll]
  | rowImage location image =>
      obtain ⟨rfl, count, -⟩ := HasRow.place built among fits.1
      rw [FieldWrite.number, FieldWrite.first, Nat.zero_mul, Nat.add_zero, count,
        ← field_size_eq, lands.bytes_eq rfl] at whole
      exact showsImage_of_bytesFrom built among seated reaches whole
  | position notice point values => trivial
  | coordinate point axis value => trivial
  | move point delta add => trivial
  | step point direction axis add => trivial

/-- A write through an accessor of a field puts its bytes where it lands and changes no other
record, unless it is told to a change listener that ends in a fault. -/
theorem writeField_of_lands (built : ofDeclarations declarations = .ok pool.layout)
    (among : field ∈ pool.layout.fields) (seated : pool.Seated) (reaches : pool.Reaches proxy)
    {write : FieldWrite} {bytes : Bytes}
    (fits : write.Fits (pool.layout.accessorsOf declarations field))
    (lands : write.Lands field bytes) :
    (∃ after, writeField proxy write pool = .ok () after ∧
      Edited pool after proxy.index ((pool.shown proxy.index).contents.writeAt
        (field.offset + write.first * field.kind.size) bytes)) ∨
    write.notice = .told ∧ ∃ fault left, writeField proxy write pool = .error fault left ∧
      ∃ record, record.id = proxy.index ∧ ListenerFaults pool record fault := by
  exact writeField_of_patch seated (recordSize_lt_of_built built) reaches.own reaches.inside
    (fits.mono (accessorsOf_inside built among)) lands.patch_eq

/-- What a write through an accessor of a field makes of the pool. -/
theorem wroteOnly_of_edited (built : ofDeclarations declarations = .ok pool.layout)
    (among : field ∈ pool.layout.fields) (blocks : Store.InBlocks σ) (seated : pool.Seated)
    (reaches : pool.Reaches proxy) {write : FieldWrite} {bytes : Bytes}
    (fits : write.Fits (pool.layout.accessorsOf declarations field))
    (lands : write.Lands field bytes) {after : Pool σ}
    (edited : Edited pool after proxy.index ((pool.shown proxy.index).contents.writeAt
      (field.offset + write.first * field.kind.size) bytes)) :
    WroteOnly declarations pool after proxy field write where
  readsBack := by
    have builtAfter : ofDeclarations declarations = .ok after.layout := by
      rwa [edited.layout_eq]
    have reachesAfter := reaches.edited edited
    have size := seated.size_shown proxy.index
    rw [← edited.layout_eq] at among fits size ⊢
    exact readsBack_of_lands builtAfter among blocks (edited.seated seated) reachesAfter fits
      lands size (congrArg Record.contents edited.shown_self)
  record := by
    have inside : proxy.index < after.capacity := edited.capacity_eq ▸ reaches.inside
    have found := (edited.seated seated).record_eq inside
    rw [edited.shown_self] at found
    exact ⟨_, _, seated.record_eq reaches.inside, found,
      FieldWrite.leavesOthers_writeAt built among lands (seated.size_shown proxy.index)⟩
  others _ different := edited.record_other seated different

theorem edited_of_writeField_ok (built : ofDeclarations declarations = .ok pool.layout)
    (among : field ∈ pool.layout.fields) (seated : pool.Seated) (reaches : pool.Reaches proxy)
    {write : FieldWrite} {bytes : Bytes}
    (fits : write.Fits (pool.layout.accessorsOf declarations field))
    (lands : write.Lands field bytes) {after : Pool σ}
    (done : writeField proxy write pool = .ok () after) :
    Edited pool after proxy.index ((pool.shown proxy.index).contents.writeAt
      (field.offset + write.first * field.kind.size) bytes) := by
  rcases writeField_of_lands built among seated reaches fits lands with
    ⟨left, returned, edited⟩ | ⟨-, fault, left, failed, -⟩
  · rw [done] at returned
    cases returned
    exact edited
  · rw [done] at failed
    cases failed

/-! ## Writes in either order -/

/-- Two writes go to different records, to different fields or to different values of a field. -/
def Elsewhere (proxy proxy' : Proxy) (field field' : Field) (write write' : FieldWrite) : Prop :=
  proxy'.index ≠ proxy.index ∨ field' ≠ field ∨
    ∀ element, ¬ (write.Covers element ∧ write'.Covers element)

/-- Bytes put into two records, or into one at places that lie apart, are put there in either
order. -/
theorem contents_comm {pool between final between' final' : Pool σ} (seated : pool.Seated)
    {index index' start start' : Nat} {bytes bytes' : Bytes}
    (fits : start + bytes.length ≤ pool.layout.recordSize)
    (fits' : start' + bytes'.length ≤ pool.layout.recordSize)
    (apart : index' ≠ index ∨ start' + bytes'.length ≤ start ∨ start + bytes.length ≤ start')
    (first : Edited pool between index ((pool.shown index).contents.writeAt start bytes))
    (second : Edited between final index'
      ((between.shown index').contents.writeAt start' bytes'))
    (first' : Edited pool between' index' ((pool.shown index').contents.writeAt start' bytes'))
    (second' : Edited between' final' index
      ((between'.shown index).contents.writeAt start bytes)) :
    Elements.contents final.slab.store = Elements.contents final'.slab.store := by
  rw [second.contents_eq, second'.contents_eq, shown, shown, first.contents_eq,
    first'.contents_eq]
  by_cases same : index' = index
  · -- The second write finds the bytes of the first, but none of them where it puts its own.
    subst same
    have size := seated.size_shown index'
    rw [Function.update_self, Function.update_self, Function.update_idem, Function.update_idem,
      Buffer.writeAt_comm (by rwa [size]) (by rwa [size]) (apart.resolve_left (absurd rfl))]
  · rw [Function.update_of_ne same, Function.update_of_ne (Ne.symm same),
      Function.update_comm same]
    rfl

/-- A second write finds the layout, and what its proxy points at, as the first did. -/
theorem Edited.writeField_ok {after final : Pool σ} {index : Nat} {contents : Buffer}
    (edited : Edited pool after index contents)
    (built : ofDeclarations declarations = .ok pool.layout) (among : field ∈ pool.layout.fields)
    (seated : pool.Seated) (reaches : pool.Reaches proxy) {write : FieldWrite} {bytes : Bytes}
    (fits : write.Fits (pool.layout.accessorsOf declarations field))
    (lands : write.Lands field bytes) (done : writeField proxy write after = .ok () final) :
    Edited after final proxy.index ((after.shown proxy.index).contents.writeAt
      (field.offset + write.first * field.kind.size) bytes) := by
  rw [← edited.layout_eq] at built among fits
  exact edited_of_writeField_ok built among (edited.seated seated) (reaches.edited edited) fits
    lands done

/-- The fields of the records of a pool do not disturb each other. -/
structure KeepsFieldsApart (declarations : List Declaration) (pool : Pool σ) : Prop where
  /-- A write through an accessor of a field returns, unless it is told to a change listener that
  ends in a fault, and when it returns that field of that record alone is written. -/
  writes : ∀ field ∈ pool.layout.fields, ∀ write : FieldWrite,
    write.Fits (pool.layout.accessorsOf declarations field) →
    ∀ proxy, pool.Reaches proxy →
      (∃ after, writeField proxy write pool = .ok () after ∧
        WroteOnly declarations pool after proxy field write) ∨
      write.notice = .told ∧ ∃ fault left, writeField proxy write pool = .error fault left ∧
        ∃ record, record.id = proxy.index ∧ ListenerFaults pool record fault
  /-- Two writes that go to different places leave the same records in either order. -/
  orders : ∀ field ∈ pool.layout.fields, ∀ field' ∈ pool.layout.fields,
    ∀ write write' : FieldWrite, write.Fits (pool.layout.accessorsOf declarations field) →
    write'.Fits (pool.layout.accessorsOf declarations field') →
    ∀ proxy proxy', pool.Reaches proxy → pool.Reaches proxy' →
    Elsewhere proxy proxy' field field' write write' →
    ∀ between final between' final',
      writeField proxy write pool = .ok () between →
      writeField proxy' write' between = .ok () final →
      writeField proxy' write' pool = .ok () between' →
      writeField proxy write between' = .ok () final' →
      ∀ index, final.record index = final'.record index

theorem keepsFieldsApart (built : ofDeclarations declarations = .ok pool.layout)
    (blocks : Store.InBlocks σ) (seated : pool.Seated) :
    pool.KeepsFieldsApart declarations where
  writes field among write fits proxy reaches := by
    obtain ⟨bytes, lands⟩ := FieldWrite.exists_lands built among fits
    rcases writeField_of_lands built among seated reaches fits lands with
      ⟨after, done, edited⟩ | failed
    · exact Or.inl ⟨after, done,
        wroteOnly_of_edited built among blocks seated reaches fits lands edited⟩
    · exact Or.inr failed
  orders field among field' among' write write' fits fits' proxy proxy' reaches reaches' elsewhere
      between final between' final' done next done' next' := by
    obtain ⟨bytes, lands⟩ := FieldWrite.exists_lands built among fits
    obtain ⟨bytes', lands'⟩ := FieldWrite.exists_lands built among' fits'
    have first := edited_of_writeField_ok built among seated reaches fits lands done
    have first' := edited_of_writeField_ok built among' seated reaches' fits' lands' done'
    have second := first.writeField_ok built among' seated reaches' fits' lands' next
    have second' := first'.writeField_ok built among seated reaches fits lands next'
    have inside := Nat.le_trans lands.inside (stop_le_of_built built among)
    have inside' := Nat.le_trans lands'.inside (stop_le_of_built built among')
    have contents := contents_comm seated inside inside'
      (elsewhere.imp_right (lands.apart built among among' lands')) first second first' second'
    intro index
    refine record_congr (second.seated (first.seated seated))
      (second'.seated (first'.seated seated)) ?_ (congrFun contents index)
    rw [second.capacity_eq, first.capacity_eq, second'.capacity_eq, first'.capacity_eq]

/-- At all times, in every pool, the fields of the records do not disturb each other. -/
theorem fields_are_isolated (declarations : List Declaration) (commands : List Command) :
    OfEveryKind fun _ _ _ opened =>
      ofDeclarations declarations = .ok opened.layout →
        (opened.run commands).2.KeepsFieldsApart declarations := by
  apply ofEveryRunSeated
  intro σ _ _ opened blocks seated orderly built
  refine keepsFieldsApart ?_ blocks (seated.run orderly commands)
  rw [run_layout]
  exact built

/-- A particle's fields, after one has been created. -/
theorem particle_fields_isolated :
    ∃ layout pool, Fixture.particle.layout = .ok layout ∧
      ofConfig ⟨0⟩ layout {} = .ok pool ∧
      ofDeclarations Fixture.particle.declarations = .ok pool.layout ∧
      (pool.run [.create (.unbound ⟨0⟩)]).2.KeepsFieldsApart Fixture.particle.declarations := by
  have opened : ∃ layout pool, Fixture.particle.layout = .ok layout ∧
      ofConfig ⟨0⟩ layout {} = .ok pool ∧
      ofDeclarations Fixture.particle.declarations = .ok pool.layout := ⟨_, _, rfl, rfl, rfl⟩
  rcases opened with ⟨layout, pool, built, openedPool, builtPool⟩
  exact ⟨layout, pool, built, openedPool, builtPool,
    (fields_are_isolated _ _).1 _ _ _ _ _ openedPool builtPool⟩

end Pool

end RecordPool
