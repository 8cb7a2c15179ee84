import RecordPool.Fixtures
import RecordPool.Pool.Cursor
import RecordPool.Proofs.Pool.Calls
import RecordPool.Proofs.Pool.Opening

/-!
# Proxies of other pools

A pool refuses the proxies of other pools: whatever it is asked to do with one, it answers
that the proxy is not its own, and nothing changes.  Views are the exception.  They go by
the index alone, and show the record of that number to whoever holds a proxy.
-/

namespace RecordPool

/-- The reads of fields through accessors. -/
inductive FieldRead where
  /-- The value of a cell. -/
  | cell {kind : Kind} (cell : Cell kind)
  /-- The bytes of a cell. -/
  | cellImage {kind : Kind} (cell : Cell kind)
  /-- One value of a row. -/
  | element {kind : Kind} (row : Row kind) (index : Nat)
  /-- All values of a row, for a destination of some length. -/
  | values {kind : Kind} (row : Row kind) (length : Nat)
  /-- The bytes of a row. -/
  | rowImage {kind : Kind} (row : Row kind)
  /-- All coordinates of a point. -/
  | position (point : Point)
  /-- One coordinate of a point. -/
  | coordinate (point : Point) (axis : Nat)

/-- What a read yields. -/
def FieldRead.Value : FieldRead → Type
  | @cell kind _ => kind.Carrier
  | cellImage _ => Bytes
  | @element kind _ _ => kind.Carrier
  | @values kind _ _ => List kind.Carrier
  | rowImage _ => Bytes
  | position _ => List Binary64
  | coordinate _ _ => Binary64

namespace Pool

variable {σ : Type} [Store σ] {pool : Pool σ} {proxy : Proxy}

/-- Carries out a read of a field. -/
def readField (pool : Pool σ) (proxy : Proxy) : (read : FieldRead) → Except Fault read.Value
  | .cell location => location.get pool proxy
  | .cellImage location => location.image pool proxy
  | .element row index => row.get pool proxy index
  | .values row length => row.valuesFor pool proxy length
  | .rowImage row => row.image pool proxy
  | .position point => point.position pool proxy
  | .coordinate point axis => point.coordinate pool proxy axis

theorem ownRecord_of_foreign (foreign : proxy.owner ≠ pool.id) :
    pool.ownRecord proxy = .error .foreignProxy := by
  rw [ownRecord, guardOwner_of_foreign foreign]
  rfl

/-- The destination is made before the owner is looked at, so that a read of all values may
also end for want of memory. -/
theorem valuesFor_of_foreign (foreign : proxy.owner ≠ pool.id) {kind : Kind} (row : Row kind)
    (length : Nat) : ∃ fault, row.valuesFor pool proxy length = .error fault := by
  unfold Row.valuesFor
  cases Address.checkBlock (length * kind.size) with
  | error fault => exact ⟨fault, rfl⟩
  | ok _ =>
      rw [except_ok_bind, guardOwner_of_foreign foreign]
      exact ⟨_, rfl⟩

theorem coordinate_of_foreign (foreign : proxy.owner ≠ pool.id) (point : Point) (axis : Nat) :
    point.coordinate pool proxy axis = .error .foreignProxy := by
  rw [Point.coordinate, Row.get, ownRecord_of_foreign foreign]
  rfl

theorem readField_of_foreign (foreign : proxy.owner ≠ pool.id) (read : FieldRead) :
    ∃ fault, pool.readField proxy read = .error fault := by
  cases read with
  | cell location =>
      rw [readField, Cell.get, ownRecord_of_foreign foreign]
      exact ⟨_, rfl⟩
  | cellImage location =>
      rw [readField, Cell.image, ownRecord_of_foreign foreign]
      exact ⟨_, rfl⟩
  | element row index =>
      rw [readField, Row.get, ownRecord_of_foreign foreign]
      exact ⟨_, rfl⟩
  | values row length => exact valuesFor_of_foreign foreign row length
  | rowImage row =>
      rw [readField, Row.image, ownRecord_of_foreign foreign]
      exact ⟨_, rfl⟩
  | position point => exact valuesFor_of_foreign foreign point.coordinates point.dimension
  | coordinate point axis => exact ⟨_, coordinate_of_foreign foreign point axis⟩

/-- A distance is measured axis by axis, and there is no first axis for a proxy of another
pool. -/
theorem squaredDistance_of_foreign {point : Point} (axes : 0 < point.dimension)
    {left right : Proxy} (foreign : left.owner ≠ pool.id ∨ right.owner ≠ pool.id) :
    ∃ fault, point.squaredDistance pool left right = .error fault := by
  rcases Nat.exists_eq_succ_of_ne_zero (Nat.ne_of_gt axes) with ⟨others, dimension⟩
  rw [Point.squaredDistance, dimension, Point.addSquares]
  by_cases foreignLeft : left.owner ≠ pool.id
  · rw [coordinate_of_foreign foreignLeft]
    exact ⟨_, rfl⟩
  · have foreignRight : right.owner ≠ pool.id := foreign.resolve_left foreignLeft
    rw [coordinate_of_foreign foreignRight]
    cases point.coordinate pool left 0 <;> exact ⟨_, rfl⟩

omit [Store σ] in
/-- A cursor points no proxy of another pool at a record. -/
theorem advance_of_foreign (foreign : proxy.owner ≠ pool.id) (cursor left : Cursor)
    (pointed : Proxy) : Cursor.advance pool proxy cursor ≠ .ok (some pointed) left := by
  intro advanced
  unfold Cursor.advance at advanced
  rw [bind_apply] at advanced
  cases stepped : Cursor.advanceId pool cursor with
  | error error after =>
      rw [stepped] at advanced
      cases advanced
  | ok found after =>
      rw [stepped] at advanced
      cases found with
      | none => cases advanced
      | some id =>
          simp only [map_apply, lookUp_of_foreign foreign, ofExcept_error_apply] at advanced
          cases advanced

/-- A pool takes a proxy for one of another pool whatever is asked with it, and stays as it
is: nothing is changed, nobody is told, the proxy is not pointed elsewhere, and nothing of
a record is read. -/
structure RefusesForeign (pool : Pool σ) (proxy : Proxy) : Prop where
  create_eq : pool.step (.create proxy) =
    (.error (.refused (.foreignProxy proxy.owner pool.id)), pool)
  delete_eq : pool.step (.delete proxy) =
    (.error (.refused (.foreignProxy proxy.owner pool.id)), pool)
  lookUp_eq : ∀ id, pool.step (.lookUp id proxy) =
    (.error (.refused (.foreignProxy proxy.owner pool.id)), pool)
  lookUpIfLive_eq : ∀ id, pool.step (.lookUpIfLive id proxy) = (.ok (.found none), pool)
  release_eq : pool.step (.release proxy) =
    (.ok (.rejected ⟨proxy, .foreignProxy proxy.owner pool.id⟩), pool)
  write_eq : ∀ write, pool.step (.write write proxy) = (.error (.fault .foreignProxy), pool)
  idOf_eq : pool.idOf proxy = .error .foreignIdentity
  read_faults : ∀ read, ∃ fault, pool.readField proxy read = .error fault
  distance_faults : ∀ (point : Point) (other : Proxy), 0 < point.dimension →
    (∃ fault, point.squaredDistance pool proxy other = .error fault) ∧
      ∃ fault, point.squaredDistance pool other proxy = .error fault
  advance_ne : ∀ cursor left pointed, Cursor.advance pool proxy cursor ≠ .ok (some pointed) left

theorem refusesForeign_of_foreign (foreign : proxy.owner ≠ pool.id) :
    RefusesForeign pool proxy where
  create_eq := step_create_of_foreign foreign
  delete_eq := step_delete_of_foreign foreign
  lookUp_eq id := by
    rw [step_eq, perform, bind_apply, get_apply]
    simp only [lookUp_of_foreign foreign]
    rfl
  lookUpIfLive_eq id := by
    have notOwn : ¬ (proxy.owner = pool.id ∧ pool.isLive id = true) := fun own => foreign own.1
    rw [step_eq, perform, bind_apply, get_apply]
    simp only [lookUp?_eq, if_neg notOwn]
    rfl
  release_eq := by
    simp only [step_eq, perform, change, release_of_foreign foreign]
    rfl
  write_eq write := by
    simp only [step_eq, perform, faultable, bind_apply, adaptExcept_apply,
      writeField_of_foreign foreign]
    rfl
  idOf_eq := if_neg foreign
  read_faults := readField_of_foreign foreign
  distance_faults point other axes :=
    ⟨squaredDistance_of_foreign axes (Or.inl foreign),
      squaredDistance_of_foreign axes (Or.inr foreign)⟩
  advance_ne := advance_of_foreign foreign

/-- Whoever minted a proxy, a view through it shows what a proxy of the pool would show, and
there is nothing to see only where the pool has no record. -/
def ShowsToAnyone (pool : Pool σ) (proxy : Proxy) : Prop :=
  pool.view proxy = pool.view ⟨pool.id, proxy.index⟩ ∧
    ((∃ fault, pool.view proxy = .error fault) ↔ pool.capacity ≤ proxy.index)

theorem showsToAnyone_of_sound [LawfulStore σ] (sound : LawfulStore.Sound pool.slab.store)
    (proxy : Proxy) : ShowsToAnyone pool proxy := by
  constructor
  · rfl
  · change (∃ fault, (do return ⟨proxy.index, ← Elements.element pool.slab.store proxy.index⟩ :
      Except Fault Record) = .error fault) ↔ Elements.size pool.slab.store ≤ proxy.index
    rw [LawfulStore.element_eq sound]
    by_cases inside : proxy.index < Elements.size pool.slab.store
    · rw [if_pos inside]
      constructor
      · rintro ⟨fault, failed⟩
        cases failed
      · intro outside
        exact absurd inside (Nat.not_lt.mpr outside)
    · rw [if_neg inside]
      constructor
      · intro _
        exact Nat.le_of_not_lt inside
      · intro _
        exact ⟨_, rfl⟩

/-- At all times a pool refuses the proxies of other pools whatever is asked with them, except
that views show its records through them. -/
theorem all_refuse_foreign_proxies (commands : List Command) (proxy : Proxy) :
    OfEveryKind fun _ _ _ pool => proxy.owner ≠ pool.id →
      RefusesForeign (pool.run commands).2 proxy ∧
        ShowsToAnyone (pool.run commands).2 proxy := by
  apply ofEveryKind
  intro σ _ _ id layout store config sound _ foreign
  rcases run_orderly (orderly_blank sound id layout config) commands with ⟨live, orderly⟩
  constructor
  · apply refusesForeign_of_foreign
    rw [run_id]
    exact foreign
  · exact showsToAnyone_of_sound orderly.sound proxy

/-- A pool with one record, and a proxy of another pool that points at a record of the same
number there. -/
theorem second_pool_refuses_first :
    ∃ layout first second, Fixture.int.layout = .ok layout ∧
      ofConfig ⟨0⟩ layout {} = .ok first ∧ ofConfig ⟨1⟩ layout {} = .ok second ∧
      let proxy : Proxy := ⟨first.id, 0⟩
      proxy.owner ≠ second.id ∧
      RefusesForeign (second.run [.create (.unbound ⟨1⟩)]).2 proxy ∧
      ShowsToAnyone (second.run [.create (.unbound ⟨1⟩)]).2 proxy := by
  have opened : ∃ layout first second, Fixture.int.layout = .ok layout ∧
      ofConfig ⟨0⟩ layout {} = .ok first ∧ ofConfig ⟨1⟩ layout {} = .ok second ∧
      first.id ≠ second.id := ⟨_, _, _, rfl, rfl, rfl, by decide⟩
  rcases opened with ⟨layout, first, second, built, openedFirst, openedSecond, different⟩
  exact ⟨layout, first, second, built, openedFirst, openedSecond, different,
    (all_refuse_foreign_proxies _ ⟨first.id, 0⟩).1 _ _ _ _ _ openedSecond different⟩

/-- The bytes of a record are seen through a proxy of another pool. -/
theorem foreign_view_shows_record :
    ∃ layout pool, Fixture.int.layout = .ok layout ∧ ofConfig ⟨1⟩ layout {} = .ok pool ∧
      let proxy : Proxy := ⟨⟨0⟩, 0⟩
      let cell : Cell .i32 := ⟨0⟩
      let written := (pool.run
        [.create (.unbound ⟨1⟩), .write (.cell .quiet cell (7 : Int32)) ⟨⟨1⟩, 0⟩]).2
      proxy.owner ≠ written.id ∧
      (fun record => record.contents.toBytes) <$> written.view proxy = .ok [7, 0, 0, 0] := by
  exact ⟨_, _, rfl, rfl, by decide, rfl⟩

end Pool

end RecordPool
