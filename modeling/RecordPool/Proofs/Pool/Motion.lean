import RecordPool.Fixtures
import RecordPool.Proofs.Pool.Reading
import RecordPool.Proofs.Pool.WriteFaults

/-!
# Moves as writes of sums

A move adds to the coordinates in place, one axis after another, and a step along an axis adds
to one of them.  Both come out as if the sums had been worked out beforehand, from the record
as it was, and then written: in the records, in what is told and to whom, and in the fault of a
listener.  What the sum of two numbers is makes no difference.
-/

namespace RecordPool

/-- Edits that are alike on the contents of an element are alike on the element. -/
theorem Elements.edit_congr {σ α : Type} [Store σ] {store : σ} {index : Nat}
    {edit other : Edit α}
    (alike : edit.run (Elements.contents store index) = other.run (Elements.contents store index)) :
    Elements.edit index edit store = Elements.edit index other store := by
  simp only [Elements.edit, bind_apply, get_apply]
  cases found : Elements.element store index with
  | error fault => rfl
  | ok contents =>
      have shown : Elements.contents store index = contents := by
        rw [Elements.contents, found]
      rw [shown] at alike
      simp only [ofExcept_ok_apply, alike]

namespace Pool

variable {σ : Type} [Store σ] {pool : Pool σ} {proxy : Proxy}
  {add : Binary64 → Binary64 → Binary64}

theorem editQuietly_congr {α : Type} {index : Nat} {edit other : Edit α}
    (alike : edit.run (pool.shown index).contents = other.run (pool.shown index).contents) :
    editQuietly index edit pool = editQuietly index other pool := by
  rw [editQuietly, editQuietly, onStore_apply, onStore_apply, Elements.edit_congr alike]

/-- Edits that are alike on a record are alike in the pool, whether they are told or not. -/
theorem edit_congr {α : Type} (notice : Notice) {index : Nat} {edit other : Edit α}
    (alike : edit.run (pool.shown index).contents = other.run (pool.shown index).contents) :
    Pool.edit notice index edit pool = Pool.edit notice index other pool := by
  cases notice with
  | quiet => exact editQuietly_congr alike
  | told =>
      simp only [Pool.edit, editNotifying, bind_apply]
      cases before : tellBefore index pool with
      | error fault left => rfl
      | ok _ announced =>
          -- The telling has not touched the record.
          obtain ⟨journal, rfl⟩ : ∃ journal, announced = pool.withJournal journal :=
            ⟨_, (announce_ok before).1⟩
          have told : editQuietly index edit (pool.withJournal journal) =
              editQuietly index other (pool.withJournal journal) := editQuietly_congr alike
          simp only [told]

variable [LawfulStore σ]

/-- A move is the write of the sums of the coordinates as they were and the delta. -/
theorem translate_eq_setPosition (blocks : Store.InBlocks σ) (seated : pool.Seated)
    (reaches : pool.Reaches proxy) {point : Point}
    (inside : (Accessors.inside pool.layout.recordSize).point point) {delta : List Binary64}
    (whole : delta.length = point.dimension) :
    ∃ position, point.position pool proxy = .ok position ∧
      position.length = point.dimension ∧
      point.translate add proxy delta pool =
        point.setPosition .told proxy (List.zipWith add position delta) pool := by
  have bounded := reaches.bounded blocks seated
  have size := seated.size_shown proxy.index
  obtain ⟨position, decoded⟩ := Kind.f64.decodeAll_of_length
    ((pool.shown proxy.index).contents.length_bytesFrom point.coordinates.offset
      (point.dimension * Kind.f64.size))
  have length := Kind.length_of_decodeAll decoded
  refine ⟨position, (row_values_eq blocks seated bounded reaches inside).trans decoded, length, ?_⟩
  have sums : (List.zipWith add position delta).length = point.dimension := by
    rw [List.length_zipWith, length, whole, Nat.min_self]
  have insideRow : point.coordinates.offset + point.coordinates.count * Kind.f64.size ≤
      pool.layout.recordSize := inside
  obtain ⟨edit, planned, puts⟩ := FieldWrite.planRow_puts insideRow bounded sums
  have moved : (point.shift add delta).run (pool.shown proxy.index).contents =
      edit.run (pool.shown proxy.index).contents := by
    rw [puts.run_eq _ size]
    rw [← whole] at decoded
    apply Point.run_shiftFrom add _ decoded
    rw [size, whole]
    exact inside
  calc
    point.translate add proxy delta pool = Pool.edit .told proxy.index (point.shift add delta) pool := by
      have planned : FieldWrite.plan (pool.record proxy.index) (.move point delta add) =
          .ok (point.shift add delta) := if_pos whole
      have written := writeField_of_own reaches.own (.move point delta add)
      rw [planned] at written
      exact written
    _ = Pool.edit .told proxy.index edit pool := edit_congr .told moved
    _ = point.setPosition .told proxy (List.zipWith add position delta) pool := by
      rw [Point.setPosition, row_setAll_of_own reaches.own, planned]
      rfl

/-- An axis that is not written is read as before, even if a listener ends the write. -/
theorem coordinate_of_other_axis (blocks : Store.InBlocks σ) (seated : pool.Seated)
    (reaches : pool.Reaches proxy) {point : Point}
    (inside : (Accessors.inside pool.layout.recordSize).point point) {axis other : Nat}
    (within : axis < point.dimension) (otherWithin : other < point.dimension)
    (different : other ≠ axis) (value : Binary64) :
    point.coordinate (stateLeft (point.setCoordinate proxy axis value pool)) proxy other =
      point.coordinate pool proxy other := by
  have bounded := reaches.bounded blocks seated
  have reads {after : Pool σ} {contents : Buffer} (edited : Edited pool after proxy.index contents) :
      point.coordinate after proxy other = Kind.f64.decode (contents.bytesFrom
        (point.coordinates.offset + other * Kind.f64.size) Kind.f64.size) := by
    have layout := edited.layout_eq
    have read := row_get_eq (edited.seated seated) (layout ▸ bounded) (reaches.edited edited)
      (layout ▸ inside) otherWithin
    rwa [edited.shown_self] at read
  have fits : (FieldWrite.coordinate point axis value).Fits (.inside pool.layout.recordSize) :=
    ⟨inside, within⟩
  have put := point.coordinates.write_puts inside bounded within value
  have apart := Buffer.bytesFrom_writeAt_apart (put.fits.trans (seated.size_shown proxy.index).ge)
    (by rw [Kind.length_encode]; exact point.coordinates.elements_apart different)
  rw [reads (.refl seated _)]
  rcases edited_of_patch seated bounded reaches.own fits rfl with edited | edited
  · exact (reads edited).trans (congrArg _ apart)
  · exact reads edited

/-- What is to hold of the moves of a point of the record that a proxy points at. -/
structure MovesBySums (add : Binary64 → Binary64 → Binary64) (pool : Pool σ) (proxy : Proxy)
    (point : Point) : Prop where
  /-- A move is the write of the sums with the coordinates as they were. -/
  move : ∀ delta, delta.length = point.dimension → ∃ position,
    point.position pool proxy = .ok position ∧ position.length = point.dimension ∧
      point.translate add proxy delta pool =
        point.setPosition .told proxy (List.zipWith add position delta) pool
  /-- A step is the write of one sum. -/
  step : ∀ direction axis, axis < point.dimension → ∃ current : Binary64,
    point.coordinate pool proxy axis = .ok current ∧
      point.stepAlong add direction proxy axis pool =
        point.setCoordinate proxy axis (add current direction.step) pool
  /-- The coordinates on the other axes stay, however a step ends. -/
  others : ∀ direction axis other, axis < point.dimension → other < point.dimension →
    other ≠ axis →
      point.coordinate (stateLeft (point.stepAlong add direction proxy axis pool)) proxy other =
        point.coordinate pool proxy other
  /-- Moves and steps that return are told once before and once after. -/
  told : ∀ delta direction axis,
    ∀ write ∈ [FieldWrite.move point delta add, .step point direction axis add], ∀ after,
      writeField proxy write pool = .ok () after →
        after.journal.toList = pool.journal.toList ++ Journal.tellings pool.changeListeners
          [(.beforeChange, pool.shown proxy.index), (.afterChange, after.shown proxy.index)]

omit [LawfulStore σ] in
theorem stepAlong_eq_setCoordinate {point : Point} {axis : Nat} {current : Binary64}
    (read : point.coordinate pool proxy axis = .ok current) (direction : Direction) :
    point.stepAlong add direction proxy axis pool =
      point.setCoordinate proxy axis (add current direction.step) pool := by
  simp only [Point.stepAlong, bind_apply, get_apply, read, ofExcept_ok_apply]

omit [LawfulStore σ] in
/-- A write that is told and returns is told once before and once after. -/
theorem writeField_tells (own : proxy.owner = pool.id) {write : FieldWrite}
    (told : write.notice = .told) {after : Pool σ}
    (done : writeField proxy write pool = .ok () after) :
    after.journal.toList = pool.journal.toList ++ Journal.tellings pool.changeListeners
      [(.beforeChange, pool.shown proxy.index), (.afterChange, after.shown proxy.index)] := by
  rw [writeField_of_own own, told] at done
  cases planned : write.plan (pool.record proxy.index) with
  | error fault =>
      rw [planned] at done
      cases done
  | ok edit =>
      rw [planned] at done
      have edited : Pool.edit .told proxy.index edit pool = .ok () after := done
      exact edit_tells edited

theorem movesBySums (blocks : Store.InBlocks σ) (seated : pool.Seated)
    (reaches : pool.Reaches proxy) {point : Point}
    (inside : (Accessors.inside pool.layout.recordSize).point point) :
    MovesBySums add pool proxy point := by
  have reads {axis : Nat} (within : axis < point.dimension) :
      ∃ current : Binary64, point.coordinate pool proxy axis = .ok current := by
    have fits : (FieldRead.coordinate point axis).Fits (.inside pool.layout.recordSize) :=
      ⟨inside, within⟩
    exact readField_of_fits blocks seated (reaches.bounded blocks seated) reaches fits
  constructor
  case move => exact fun delta whole => translate_eq_setPosition blocks seated reaches inside whole
  case step =>
    intro direction axis within
    obtain ⟨current, read⟩ := reads within
    exact ⟨current, read, stepAlong_eq_setCoordinate read direction⟩
  case others =>
    intro direction axis other within otherWithin different
    obtain ⟨current, read⟩ := reads within
    rw [stepAlong_eq_setCoordinate read direction]
    exact coordinate_of_other_axis blocks seated reaches inside within otherWithin different _
  case told =>
    intro delta direction axis write among after done
    have told : write.notice = .told := by
      rcases List.mem_pair.mp among with rfl | rfl <;> rfl
    exact writeField_tells reaches.own told done

/-- At all times, moves and steps of a point inside the record write the sums with the
coordinates as they are, told as one change. -/
theorem moves_write_sums (add : Binary64 → Binary64 → Binary64) (commands : List Command)
    (proxy : Proxy) (point : Point) :
    OfEveryKind fun _ _ _ opened => (opened.run commands).2.Reaches proxy →
      point.coordinates.offset + point.dimension * Kind.f64.size ≤ opened.layout.recordSize →
        MovesBySums add (opened.run commands).2 proxy point := by
  apply ofEveryRunSeated
  intro σ _ _ opened blocks seated orderly reaches inside
  rw [← run_layout opened commands] at inside
  exact movesBySums blocks (seated.run orderly commands) reaches inside

/-- The position of a particle just created. -/
theorem particle_moves_by_sums :
    ∃ layout pool point, Fixture.particle.layout = .ok layout ∧
      ofConfig ⟨0⟩ layout {} = .ok pool ∧ layout.point "pos" = .ok point ∧
      let commands : List Command :=
        [.create (.unbound ⟨0⟩), .subscribe .changes .attentive]
      (pool.run commands).2.Reaches ⟨⟨0⟩, 0⟩ ∧
        point.coordinates.offset + point.dimension * Kind.f64.size ≤ pool.layout.recordSize ∧
        MovesBySums .add (pool.run commands).2 ⟨⟨0⟩, 0⟩ point := by
  have opened : ∃ layout pool point, Fixture.particle.layout = .ok layout ∧
      ofConfig ⟨0⟩ layout {} = .ok pool ∧ layout.point "pos" = .ok point ∧
      (pool.run [.create (.unbound ⟨0⟩), .subscribe .changes .attentive]).2.Reaches ⟨⟨0⟩, 0⟩ ∧
      point.coordinates.offset + point.dimension * Kind.f64.size ≤ pool.layout.recordSize :=
    ⟨_, _, _, rfl, rfl, rfl, ⟨rfl, by decide⟩, by decide⟩
  rcases opened with ⟨layout, pool, point, built, opened, found, reaches, inside⟩
  exact ⟨layout, pool, point, built, opened, found, reaches, inside,
    (moves_write_sums _ _ _ _).1 _ _ _ _ _ opened reaches inside⟩

end Pool

end RecordPool
