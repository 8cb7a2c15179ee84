import RecordPool.Proofs.Pool.Ownership
import RecordPool.Proofs.Pool.Writing
import RecordPool.Proofs.Store.Blocks

/-!
# Reading the records of a pool

What an accessor reads through a proxy of a pool is the bytes that lie at its location in
the record, and what they stand for.  A read inside the record returns.
-/

namespace RecordPool

namespace FieldRead

/-- A read through one of the chosen accessors, with an index below the length of the row or for
as many values as it has. -/
def Fits (accessors : Accessors) : FieldRead → Prop
  | @cell kind location => accessors.cell kind location
  | @cellImage kind location => accessors.cell kind location
  | @element kind location index => accessors.row kind location ∧ index < location.count
  | @values kind location length => accessors.row kind location ∧ length = location.count
  | @rowImage kind location => accessors.row kind location
  | position point => accessors.point point
  | coordinate point axis => accessors.point point ∧ axis < point.dimension

theorem Fits.mono {few many : Accessors} (among : few.Among many) {read : FieldRead}
    (fits : read.Fits few) : read.Fits many := by
  cases read with
  | cell location => exact among.cell _ _ fits
  | cellImage location => exact among.cell _ _ fits
  | element location index => exact ⟨among.row _ _ fits.1, fits.2⟩
  | values location length => exact ⟨among.row _ _ fits.1, fits.2⟩
  | rowImage location => exact among.row _ _ fits
  | position point => exact among.point _ fits
  | coordinate point axis => exact ⟨among.point _ fits.1, fits.2⟩

end FieldRead

namespace Pool

open LawfulStore

variable {σ : Type} [Store σ] [LawfulStore σ] {pool : Pool σ}

/-- A proxy of a pool that points at an index below its capacity. -/
structure Reaches (pool : Pool σ) (proxy : Proxy) : Prop where
  own : proxy.owner = pool.id
  inside : proxy.index < pool.capacity

variable {proxy : Proxy}

theorem Reaches.ownRecord_eq (reaches : pool.Reaches proxy) (seated : pool.Seated) :
    pool.ownRecord proxy = .ok (pool.shown proxy.index) := by
  rw [ownRecord, guardOwner_of_own reaches.own, except_ok_bind, seated.record_eq reaches.inside]

theorem Reaches.edited {after : Pool σ} {index : Nat} {contents : Buffer}
    (reaches : pool.Reaches proxy) (edited : Edited pool after index contents) :
    after.Reaches proxy where
  own := reaches.own.trans edited.id_eq.symm
  inside := edited.capacity_eq ▸ reaches.inside

/-- Where there is a record, its positions are addresses. -/
theorem Reaches.bounded (reaches : pool.Reaches proxy) (blocks : Store.InBlocks σ)
    (seated : pool.Seated) : pool.layout.recordSize < Address.limit := by
  have block := blocks pool.slab.store seated.sound proxy.index reaches.inside
  rw [seated.elementSize_eq] at block
  exact Nat.lt_trans block (by decide)

theorem window_shown (seated : pool.Seated) {start count : Nat}
    (inside : start + count ≤ pool.layout.recordSize) (index : Nat) :
    (pool.shown index).contents.window start count =
      .ok ((pool.shown index).contents.bytesFrom start count) := by
  apply if_pos
  rw [seated.size_shown]
  exact inside

section Reads

variable {kind : Kind}

theorem cell_get_eq (seated : pool.Seated) (reaches : pool.Reaches proxy) {cell : Cell kind}
    (inside : cell.offset + kind.size ≤ pool.layout.recordSize) :
    cell.get pool proxy =
      kind.decode ((pool.shown proxy.index).contents.bytesFrom cell.offset kind.size) := by
  simp only [Cell.get, reaches.ownRecord_eq seated, except_ok_bind, Cell.read, Record.get,
    window_shown seated inside]

theorem cell_image_eq (seated : pool.Seated) (reaches : pool.Reaches proxy) {cell : Cell kind}
    (inside : cell.offset + kind.size ≤ pool.layout.recordSize) :
    cell.image pool proxy =
      .ok ((pool.shown proxy.index).contents.bytesFrom cell.offset kind.size) := by
  simp only [Cell.image, reaches.ownRecord_eq seated, except_ok_bind, window_shown seated inside]

theorem row_get_eq (seated : pool.Seated) (bounded : pool.layout.recordSize < Address.limit)
    (reaches : pool.Reaches proxy) {row : Row kind}
    (inside : row.offset + row.count * kind.size ≤ pool.layout.recordSize) {index : Nat}
    (within : index < row.count) :
    row.get pool proxy index = kind.decode
      ((pool.shown proxy.index).contents.bytesFrom (row.offset + index * kind.size)
        kind.size) := by
  rw [← seated.size_shown proxy.index] at inside bounded
  simp only [Row.get, reaches.ownRecord_eq seated, except_ok_bind,
    row.read_of_inside inside bounded within]

theorem row_image_eq (seated : pool.Seated) (bounded : pool.layout.recordSize < Address.limit)
    (reaches : pool.Reaches proxy) {row : Row kind}
    (inside : row.offset + row.count * kind.size ≤ pool.layout.recordSize) :
    row.image pool proxy = .ok ((pool.shown proxy.index).contents.bytesFrom row.offset
      (row.count * kind.size)) := by
  simp only [Row.image, reaches.ownRecord_eq seated, except_ok_bind,
    row.span_of_inside inside bounded, window_shown seated inside]

/-- Where there is a record, there is memory for all values of a row in it. -/
theorem row_values_eq (blocks : Store.InBlocks σ) (seated : pool.Seated)
    (bounded : pool.layout.recordSize < Address.limit) (reaches : pool.Reaches proxy)
    {row : Row kind} (inside : row.offset + row.count * kind.size ≤ pool.layout.recordSize) :
    row.valuesFor pool proxy row.count = kind.decodeAll row.count
      ((pool.shown proxy.index).contents.bytesFrom row.offset (row.count * kind.size)) := by
  have block := blocks pool.slab.store seated.sound proxy.index reaches.inside
  rw [seated.elementSize_eq] at block
  have made : Address.checkBlock (row.count * kind.size) = .ok () :=
    if_pos (Nat.lt_of_le_of_lt (Nat.le_of_add_left_le inside) block)
  simp only [Row.valuesFor, made, except_ok_bind, guardOwner_of_own reaches.own, if_true,
    seated.record_eq reaches.inside, row.span_of_inside inside bounded,
    window_shown seated inside]

/-- A read that fits the records of a pool returns at every index below the capacity. -/
theorem readField_of_fits (blocks : Store.InBlocks σ) (seated : pool.Seated)
    (bounded : pool.layout.recordSize < Address.limit) (reaches : pool.Reaches proxy)
    {read : FieldRead} (fits : read.Fits (.inside pool.layout.recordSize)) :
    ∃ value, pool.readField proxy read = .ok value := by
  cases read with
  | @cell kind location =>
      obtain ⟨value, decoded⟩ := kind.decode_of_length
        ((pool.shown proxy.index).contents.length_bytesFrom location.offset kind.size)
      exact ⟨value, (cell_get_eq seated reaches fits).trans decoded⟩
  | cellImage location => exact ⟨_, cell_image_eq seated reaches fits⟩
  | @element kind location index =>
      obtain ⟨value, decoded⟩ := kind.decode_of_length
        ((pool.shown proxy.index).contents.length_bytesFrom
          (location.offset + index * kind.size) kind.size)
      exact ⟨value, (row_get_eq seated bounded reaches fits.1 fits.2).trans decoded⟩
  | @values kind location length =>
      obtain ⟨inside, rfl⟩ := fits
      obtain ⟨values, decoded⟩ := kind.decodeAll_of_length
        ((pool.shown proxy.index).contents.length_bytesFrom location.offset
          (location.count * kind.size))
      exact ⟨values, (row_values_eq blocks seated bounded reaches inside).trans decoded⟩
  | rowImage location => exact ⟨_, row_image_eq seated bounded reaches fits⟩
  | position point =>
      obtain ⟨values, decoded⟩ := Kind.f64.decodeAll_of_length
        ((pool.shown proxy.index).contents.length_bytesFrom point.coordinates.offset
          (point.coordinates.count * Kind.f64.size))
      exact ⟨values, (row_values_eq blocks seated bounded reaches fits).trans decoded⟩
  | coordinate point axis =>
      obtain ⟨value, decoded⟩ := Kind.f64.decode_of_length
        ((pool.shown proxy.index).contents.length_bytesFrom
          (point.coordinates.offset + axis * Kind.f64.size) Kind.f64.size)
      exact ⟨value, (row_get_eq seated bounded reaches fits.1 fits.2).trans decoded⟩

/-- The distance between two records is measured. -/
theorem squaredDistance_of_inside (blocks : Store.InBlocks σ) (seated : pool.Seated)
    (bounded : pool.layout.recordSize < Address.limit) {left right : Proxy}
    (reachesLeft : pool.Reaches left) (reachesRight : pool.Reaches right) {point : Point}
    (inside : (Accessors.inside pool.layout.recordSize).point point) :
    ∃ square, point.squaredDistance pool left right = .ok square := by
  have coordinate {proxy : Proxy} (reaches : pool.Reaches proxy) {axis : Nat}
      (within : axis < point.dimension) :
      ∃ value : Binary64, point.coordinate pool proxy axis = .ok value := by
    have fits : (FieldRead.coordinate point axis).Fits (.inside pool.layout.recordSize) :=
      ⟨inside, within⟩
    exact readField_of_fits blocks seated bounded reaches fits
  have sums (count : Nat) : ∀ (axis : Nat) (sum : Binary64), axis + count ≤ point.dimension →
      ∃ square, point.addSquares pool left right sum axis count = .ok square := by
    induction count with
    | zero => exact fun axis sum _ => ⟨sum, rfl⟩
    | succ count ih =>
        intro axis sum within
        have here : axis < point.dimension := by omega
        obtain ⟨first, readLeft⟩ := coordinate reachesLeft here
        obtain ⟨second, readRight⟩ := coordinate reachesRight here
        simp only [Point.addSquares, readLeft, readRight, except_ok_bind]
        exact ih (axis + 1) _ (by omega)
  exact sums point.dimension 0 .negativeZero (Nat.zero_add _).le

end Reads

/-- The elements of all pools just opened lie in blocks of memory. -/
theorem inBlocks_ofEveryKind : OfEveryKind fun σ _ _ _ => Store.InBlocks σ := by
  refine ⟨?_, ?_, ?_⟩
  · exact fun _ _ _ _ _ _ => Backend.inBlocks
  · exact fun _ _ _ _ _ _ _ => Backend.inBlocks
  · intro elementSize size
    refine ⟨?_, ?_, ?_, ?_, ?_⟩
    · exact fun _ _ _ _ _ _ _ _ _ _ _ => Flat.inBlocks _
    · exact fun _ _ _ _ _ _ _ _ _ _ _ => Flat.inBlocks _
    · exact fun _ _ _ _ _ _ _ _ _ _ _ _ => Chain.inBlocks (Flat.inBlocks _)
    · exact fun _ _ _ _ _ _ _ _ _ _ _ _ => Chain.inBlocks (Flat.inBlocks _)
    · exact fun _ _ _ _ _ _ _ _ _ => Backend.inBlocks

/-- What holds at all times of all pools that are seated on blocks of memory holds of all pools
just opened. -/
theorem ofEveryRunSeated
    {property : (σ : Type) → [Store σ] → [LawfulStore σ] → Pool σ → Prop}
    (ofSeated : ∀ (σ : Type) [Store σ] [LawfulStore σ] (opened : Pool σ),
      Store.InBlocks σ → opened.Seated → opened.slab.Orderly ∅ → property σ opened) :
    OfEveryKind property := by
  apply OfEveryKind.mp _ inBlocks_ofEveryKind
  apply ofEveryKind
  intro σ _ _ id layout store config sound fits blocks
  exact ofSeated σ _ blocks (seated_blank sound fits) (orderly_blank sound id layout config)

end Pool

end RecordPool
