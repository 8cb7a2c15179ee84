import RecordPool.Pool.Command
import RecordPool.Proofs.Computation

/-!
# Writes to fields in two parts

Every write to a field first finds out what to do, from the call and, for a step along an
axis, from the record as it is; only then the record is edited.  What is wrong with the call
is found in the first part, before anything is changed or anyone is told.
-/

namespace RecordPool

namespace FieldWrite

/-- Whether a write tells the change listeners. -/
def notice : FieldWrite → Notice
  | .cell notice _ _ => notice
  | .cellImage _ _ => .quiet
  | .element notice _ _ _ => notice
  | .row notice _ _ => notice
  | .rowImage _ _ => .quiet
  | .position notice _ _ => notice
  | .coordinate _ _ _ => .told
  | .move _ _ _ => .told
  | .step _ _ _ _ => .told

/-- The edit that writes all values of a row. -/
def planRow {kind : Kind} (row : Row kind) (values : List kind.Carrier) :
    Except Fault (Edit Unit) :=
  if values.length = row.count then do
    let span ← row.span
    return Edit.putAll kind span.start span.count values
  else
    .error .sourceLength

/-- The edit that writes one value of a row. -/
def planElement {kind : Kind} (row : Row kind) (index : Nat) (value : kind.Carrier) :
    Except Fault (Edit Unit) := do
  discard <| row.elementSpan index
  return row.write index value

/-- The edit that a write makes to a record that looks as given. -/
def plan (record : Except Fault Record) : FieldWrite → Except Fault (Edit Unit)
  | .cell .quiet location value => .ok (location.write value)
  | .cell .told location value => do
      discard location.span
      return location.write value
  | @cellImage kind location image =>
      .ok (Edit.copyInto location.offset kind.size image)
  | .element _ location index value => planElement location index value
  | .row _ location values => planRow location values
  | .rowImage location image => do
      let span ← location.span
      return Edit.copyInto span.start span.count image
  | .position _ point values => planRow point.coordinates values
  | .coordinate point axis value => planElement point.coordinates axis value
  | .move point delta add =>
      if delta.length = point.dimension then
        .ok (point.shift add delta)
      else
        .error .deltaDimension
  | .step point direction axis add => do
      let current ← point.coordinates.read (← record) axis
      planElement point.coordinates axis (add current direction.step)

end FieldWrite

namespace Pool

variable {σ : Type} [Store σ]

omit [Store σ] in
theorem guardOwner_of_own {pool : Pool σ} {proxy : Proxy} (own : proxy.owner = pool.id) :
    pool.guardOwner proxy = .ok () :=
  if_pos own

omit [Store σ] in
theorem guardOwner_of_foreign {pool : Pool σ} {proxy : Proxy} (foreign : proxy.owner ≠ pool.id) :
    pool.guardOwner proxy = .error .foreignProxy :=
  if_neg foreign

/-- A write through a proxy of another pool is a misuse. -/
theorem writeField_of_foreign {pool : Pool σ} {proxy : Proxy}
    (foreign : proxy.owner ≠ pool.id) (write : FieldWrite) :
    writeField proxy write pool = .error .foreignProxy pool := by
  have guard := guardOwner_of_foreign foreign
  cases write with
  | step point direction axis add =>
      simp only [writeField, Point.stepAlong, Point.coordinate, Row.get, ownRecord, bind_apply,
        get_apply, guard, except_error_bind, ofExcept_error_apply]
  | _ =>
      simp only [writeField, Cell.set, Cell.setImage, Row.set, Row.setAll, Row.setImage,
        Point.setPosition, Point.setCoordinate, Point.translate, bind_apply, get_apply, guard,
        ofExcept_error_apply]

/-- What becomes of a planned edit. -/
def carryOut (notice : Notice) (index : Nat) (pool : Pool σ) :
    Except Fault (Edit Unit) → EStateM.Result Fault (Pool σ) Unit
  | .ok edit => Pool.edit notice index edit pool
  | .error fault => .error fault pool

theorem row_set_of_own {pool : Pool σ} {proxy : Proxy} (own : proxy.owner = pool.id)
    {kind : Kind} (row : Row kind) (notice : Notice) (index : Nat) (value : kind.Carrier) :
    row.set notice proxy index value pool =
      carryOut notice proxy.index pool (FieldWrite.planElement row index value) := by
  simp only [Row.set, bind_apply, get_apply, guardOwner_of_own own, ofExcept_ok_apply,
    FieldWrite.planElement]
  cases row.elementSpan index <;> rfl

theorem row_setAll_of_own {pool : Pool σ} {proxy : Proxy} (own : proxy.owner = pool.id)
    {kind : Kind} (row : Row kind) (notice : Notice) (values : List kind.Carrier) :
    row.setAll notice proxy values pool =
      carryOut notice proxy.index pool (FieldWrite.planRow row values) := by
  simp only [Row.setAll, bind_apply, get_apply, guardOwner_of_own own, ofExcept_ok_apply,
    FieldWrite.planRow]
  by_cases whole : values.length = row.count
  · simp only [if_pos whole]
    cases row.span <;> rfl
  · simp only [if_neg whole]
    rfl

/-- A write through a proxy of the pool makes the edit planned for the record as it is. -/
theorem writeField_of_own {pool : Pool σ} {proxy : Proxy} (own : proxy.owner = pool.id)
    (write : FieldWrite) :
    writeField proxy write pool =
      carryOut write.notice proxy.index pool (write.plan (pool.record proxy.index)) := by
  have guard := guardOwner_of_own own
  cases write with
  | cell notice cell value =>
      simp only [writeField, Cell.set, bind_apply, get_apply, guard, ofExcept_ok_apply]
      cases notice with
      | quiet => rfl
      | told =>
          simp only [FieldWrite.plan]
          cases cell.span <;> rfl
  | cellImage cell image =>
      simp only [writeField, Cell.setImage, bind_apply, get_apply, guard, ofExcept_ok_apply]
      rfl
  | element notice row index value => exact row_set_of_own own row notice index value
  | row notice row values => exact row_setAll_of_own own row notice values
  | rowImage row image =>
      simp only [writeField, Row.setImage, bind_apply, get_apply, guard, ofExcept_ok_apply,
        FieldWrite.plan]
      cases row.span <;> rfl
  | position notice point position =>
      exact row_setAll_of_own own point.coordinates notice position
  | coordinate point axis value => exact row_set_of_own own point.coordinates .told axis value
  | move point delta add =>
      simp only [writeField, Point.translate, bind_apply, get_apply, guard, ofExcept_ok_apply,
        FieldWrite.plan]
      by_cases whole : delta.length = point.dimension
      · simp only [if_pos whole]
        rfl
      · simp only [if_neg whole]
        rfl
  | step point direction axis add =>
      simp only [writeField, Point.stepAlong, Point.coordinate, Row.get, ownRecord, bind_apply,
        get_apply, guard, except_ok_bind, FieldWrite.plan]
      cases pool.record proxy.index with
      | error fault => rfl
      | ok record =>
          simp only [except_ok_bind]
          cases point.coordinates.read record axis with
          | error fault => rfl
          | ok current =>
              simp only [ofExcept_ok_apply]
              exact row_set_of_own own point.coordinates .told axis (add current direction.step)

end Pool

end RecordPool
