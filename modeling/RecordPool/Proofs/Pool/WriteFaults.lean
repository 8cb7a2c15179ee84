import RecordPool.Fixtures
import RecordPool.Proofs.Pool.Writing

/-!
# Writes that end in a fault

All writes to fields but one look at what they need and then write all their bytes at once, so
that a fault finds the record as it was.  A move goes from axis to axis: of a point that lies
only partly inside the record, the axes that do are moved before the fault.

Listeners come before and after.  The one that is told of the record as it was can keep the
write from being made, the one that is told of the record written is too late for that.
-/

namespace RecordPool

namespace Edit

variable {α β : Type}

/-- An edit that does not change the record. -/
def Looks (edit : Edit α) : Prop :=
  ∀ contents, contentsLeft (edit.run contents) = contents

/-- An edit that has changed nothing when it ends in a fault. -/
def AllOrNothing (edit : Edit α) : Prop :=
  ∀ contents fault left, edit.run contents = .error fault left → left = contents

theorem looks_contents : Looks contents :=
  fun _ => rfl

theorem looks_fault (fault : Fault) : Looks (Edit.fault fault : Edit α) :=
  fun _ => rfl

theorem looks_ofExcept (result : Except Fault α) : Looks (ofExcept result) := by
  intro contents
  cases result <;> rfl

theorem looks_discard_ofExcept (result : Except Fault α) : Looks (discard (ofExcept result)) := by
  intro contents
  cases result <;> rfl

theorem Looks.allOrNothing {edit : Edit α} (looks : edit.Looks) : edit.AllOrNothing := by
  intro contents fault left ended
  have same := looks contents
  rwa [ended] at same

/-- What is written after a look is all or nothing if it is so by itself. -/
theorem Looks.bind {first : Edit α} (looks : first.Looks) {next : α → Edit β}
    (allOrNothing : ∀ value, (next value).AllOrNothing) : (first >>= next).AllOrNothing := by
  intro contents fault left ended
  have same := looks contents
  rw [run_bind] at ended
  cases looked : first.run contents with
  | error found unchanged =>
      rw [looked] at same ended
      cases ended
      exact same
  | ok value unchanged =>
      rw [looked] at same ended
      exact (allOrNothing value _ _ _ ended).trans same

theorem splice_allOrNothing (start : Nat) (bytes : Bytes) :
    (splice start bytes).AllOrNothing := by
  intro contents fault left ended
  change (if _ then _ else _) = _ at ended
  split at ended
  · cases ended
  · cases ended
    rfl

/-- Of several values the first finds the place of all. -/
theorem putAll_allOrNothing (kind : Kind) (start count : Nat) (values : List kind.Carrier) :
    (putAll kind start count values).AllOrNothing := by
  intro contents fault left ended
  rw [run_putAll] at ended
  split at ended
  · cases ended
  · cases ended
    rfl

theorem copyInto_allOrNothing (start count : Nat) (bytes : Bytes) :
    (copyInto start count bytes).AllOrNothing := by
  refine looks_contents.bind fun current => (looks_discard_ofExcept _).bind fun _ => ?_
  split
  · exact splice_allOrNothing start bytes
  · exact (looks_fault _).allOrNothing

end Edit

theorem Cell.write_allOrNothing {kind : Kind} (cell : Cell kind) (value : kind.Carrier) :
    (cell.write value).AllOrNothing :=
  Edit.splice_allOrNothing _ _

theorem Row.write_allOrNothing {kind : Kind} (row : Row kind) (index : Nat)
    (value : kind.Carrier) : (row.write index value).AllOrNothing :=
  (Edit.looks_ofExcept _).bind fun _ => Edit.splice_allOrNothing _ _

/-! ## Moves that run out of the record -/

namespace Point

variable {add : Binary64 → Binary64 → Binary64}

/-- The first `count` axes of a point lie inside the records of a size, the next one does not. -/
structure Straddles (point : Point) (size count : Nat) : Prop where
  some_inside : 0 < count
  not_all : count < point.dimension
  inside : point.coordinates.offset + count * Kind.f64.size ≤ size
  outside : size < point.coordinates.offset + (count + 1) * Kind.f64.size

theorem run_shiftFrom_append (offset : Nat) (delta later : List Binary64) (contents : Buffer) :
    (shiftFrom add offset (delta ++ later)).run contents =
      match (shiftFrom add offset delta).run contents with
      | .ok _ left => (shiftFrom add (offset + delta.length * Kind.f64.size) later).run left
      | .error fault left => .error fault left := by
  induction delta generalizing offset contents with
  | nil =>
      rw [List.length_nil, Nat.zero_mul]
      rfl
  | cons step rest ih =>
      have next : offset + (step :: rest).length * Kind.f64.size =
          offset + Kind.f64.size + rest.length * Kind.f64.size := by
        rw [List.length_cons, Nat.succ_mul]
        omega
      rw [next, List.cons_append]
      simp only [shiftFrom, Edit.run_bind, ih]
      cases (Edit.get .f64 offset).run contents with
      | error fault left => rfl
      | ok current left =>
          dsimp only
          cases (Edit.put .f64 offset (add current step)).run left <;> rfl

/-- A shift whose first axis is outside the record changes nothing. -/
theorem run_shiftFrom_of_outside {offset : Nat} {step : Binary64} {rest : List Binary64}
    {contents : Buffer} (outside : contents.size < offset + Kind.f64.size) :
    (shiftFrom add offset (step :: rest)).run contents = .error .byteRange contents := by
  simp only [shiftFrom, Edit.run_bind, Edit.run_get_of_outside outside]

theorem exists_straddles {point : Point} {size : Nat}
    (first : point.coordinates.offset + Kind.f64.size ≤ size)
    (last : size < point.coordinates.offset + point.dimension * Kind.f64.size) :
    ∃ count, point.Straddles size count := by
  have width : Kind.f64.size = 8 := rfl
  rw [width] at first last
  refine ⟨(size - point.coordinates.offset) / 8, ?_, ?_, ?_, ?_⟩
  · omega
  · omega
  · rw [width]
    omega
  · rw [width]
    omega

/-- Of a point that lies partly inside the record, a shift moves the axes that do and ends in a
fault at the next one. -/
theorem run_shift_of_straddles {point : Point} {delta coordinates : List Binary64}
    {contents : Buffer} {count : Nat} (whole : delta.length = point.dimension)
    (straddles : point.Straddles contents.size count)
    (decoded : Kind.f64.decodeAll count (contents.bytesFrom point.coordinates.offset
      (count * Kind.f64.size)) = .ok coordinates) :
    (point.shift add delta).run contents =
      .error .byteRange (contents.writeAt point.coordinates.offset
        (Kind.f64.encodeAll (List.zipWith add coordinates (delta.take count)))) := by
  -- The delta splits into the steps of the axes inside, which are all made, and the next step.
  have within : count < delta.length := whole ▸ straddles.not_all
  have taken : (delta.take count).length = count := List.length_take_of_le within.le
  have split : delta = delta.take count ++ delta[count] :: delta.drop (count + 1) := by
    rw [← List.drop_eq_getElem_cons within, List.take_append_drop]
  have outside := straddles.outside
  rw [Nat.succ_mul, ← Nat.add_assoc] at outside
  have insideTaken : point.coordinates.offset + (delta.take count).length * Kind.f64.size ≤
      contents.size := by
    rw [taken]
    exact straddles.inside
  have moved := run_shiftFrom add insideTaken (by rw [taken]; exact decoded)
  rw [shift]
  nth_rewrite 1 [split]
  rw [run_shiftFrom_append, moved, taken]
  exact run_shiftFrom_of_outside (by rw [Buffer.size_writeAt]; exact outside)

/-- A shift that ends in a fault has changed nothing, or it has moved the axes that lie inside
the record. -/
theorem run_shift_error {point : Point} {delta : List Binary64}
    (whole : delta.length = point.dimension) {contents left : Buffer} {fault : Fault}
    (ended : (point.shift add delta).run contents = .error fault left) :
    left = contents ∨ fault = .byteRange ∧ ∃ count coordinates,
      point.Straddles contents.size count ∧
      Kind.f64.decodeAll count (contents.bytesFrom point.coordinates.offset
        (count * Kind.f64.size)) = .ok coordinates ∧
      left = contents.writeAt point.coordinates.offset
        (Kind.f64.encodeAll (List.zipWith add coordinates (delta.take count))) := by
  by_cases last : point.coordinates.offset + delta.length * Kind.f64.size ≤ contents.size
  · obtain ⟨moved, returned⟩ := shiftFrom_returns add delta last contents rfl
    rw [shift, returned] at ended
    cases ended
  · by_cases first : point.coordinates.offset + Kind.f64.size ≤ contents.size
    · obtain ⟨count, straddles⟩ := exists_straddles first (by rw [← whole]; omega)
      obtain ⟨coordinates, decoded⟩ := Kind.f64.decodeAll_of_length
        (contents.length_bytesFrom point.coordinates.offset (count * Kind.f64.size))
      rw [run_shift_of_straddles whole straddles decoded] at ended
      cases ended
      exact Or.inr ⟨rfl, count, coordinates, straddles, decoded, rfl⟩
    · left
      cases delta with
      | nil => cases ended
      | cons step rest =>
          rw [shift, run_shiftFrom_of_outside (Nat.lt_of_not_le first)] at ended
          cases ended
          rfl

end Point

namespace FieldWrite

section Plans

variable {edit : Edit Unit} {kind : Kind} {row : Row kind}

theorem planElement_allOrNothing {index : Nat} {value : kind.Carrier}
    (planned : planElement row index value = .ok edit) : edit.AllOrNothing := by
  rcases except_bind_eq_ok_iff.mp planned with ⟨_, -, made⟩
  cases made
  exact row.write_allOrNothing index value

theorem planRow_allOrNothing {values : List kind.Carrier}
    (planned : planRow row values = .ok edit) : edit.AllOrNothing := by
  unfold planRow at planned
  split at planned
  · rcases except_bind_eq_ok_iff.mp planned with ⟨span, -, made⟩
    cases made
    exact Edit.putAll_allOrNothing _ _ _ _
  · cases planned

/-- The edit of every write but a move writes all or nothing. -/
theorem plan_allOrNothing {write : FieldWrite} {record : Except Fault Record}
    (planned : write.plan record = .ok edit) :
    edit.AllOrNothing ∨
      ∃ point delta add, write = .move point delta add ∧ delta.length = point.dimension ∧
        edit = point.shift add delta := by
  cases write with
  | cell notice location value =>
      left
      cases notice with
      | quiet =>
          cases planned
          exact location.write_allOrNothing value
      | told =>
          rcases except_bind_eq_ok_iff.mp planned with ⟨_, -, made⟩
          cases made
          exact location.write_allOrNothing value
  | cellImage location image =>
      cases planned
      exact Or.inl (Edit.copyInto_allOrNothing _ _ _)
  | element notice location index value => exact Or.inl (planElement_allOrNothing planned)
  | row notice location given => exact Or.inl (planRow_allOrNothing planned)
  | rowImage location image =>
      rcases except_bind_eq_ok_iff.mp planned with ⟨span, -, made⟩
      cases made
      exact Or.inl (Edit.copyInto_allOrNothing _ _ _)
  | position notice point position =>
      have plannedRow : planRow point.coordinates position = .ok edit := planned
      exact Or.inl (planRow_allOrNothing plannedRow)
  | coordinate point axis value => exact Or.inl (planElement_allOrNothing planned)
  | step point direction axis add =>
      rcases except_bind_eq_ok_iff.mp planned with ⟨shown, -, looked⟩
      rcases except_bind_eq_ok_iff.mp looked with ⟨current, -, made⟩
      exact Or.inl (planElement_allOrNothing made)
  | move point delta add =>
      right
      rw [plan] at planned
      split at planned
      · next whole =>
          cases planned
          exact ⟨point, delta, add, rfl, whole, rfl⟩
      · cases planned

end Plans

end FieldWrite

/-! ## Writes in a pool -/

namespace Pool

variable {σ : Type} [Store σ] [LawfulStore σ] {pool final : Pool σ} {fault : Fault}

/-- The ways in which a write to a field comes to end in a fault. -/
inductive WriteBreaks (pool : Pool σ) (proxy : Proxy) (write : FieldWrite) (fault : Fault)
    (final : Pool σ) : Prop where
  /-- Nothing has been written to any record. -/
  | unwritten (same : SameRecords pool final)
  /-- All has been written, and a listener that is told of that ends in the fault. -/
  | written {edit : Edit Unit} {left : Buffer} (told : write.notice = .told)
      (planned : write.plan (pool.record proxy.index) = .ok edit)
      (returned : edit.run (pool.shown proxy.index).contents = .ok () left)
      (edited : Edited pool final proxy.index left)
      (telling : TellingFaults pool .afterChange ⟨proxy.index, left⟩ fault)
  /-- A point that lies partly inside the record is moved along the axes that do. -/
  | halfMoved {point : Point} {add : Binary64 → Binary64 → Binary64}
      {delta coordinates : List Binary64} {count : Nat}
      (moves : write = .move point delta add) (outside : fault = .byteRange)
      (straddles : point.Straddles pool.layout.recordSize count)
      (decoded : Kind.f64.decodeAll count ((pool.shown proxy.index).contents.bytesFrom
        point.coordinates.offset (count * Kind.f64.size)) = .ok coordinates)
      (edited : Edited pool final proxy.index ((pool.shown proxy.index).contents.writeAt
        point.coordinates.offset
        (Kind.f64.encodeAll (List.zipWith add coordinates (delta.take count)))))

theorem writeField_error (seated : pool.Seated) {proxy : Proxy} {write : FieldWrite}
    (ended : writeField proxy write pool = .error fault final) :
    WriteBreaks pool proxy write fault final := by
  by_cases own : proxy.owner = pool.id
  · rw [writeField_of_own own] at ended
    cases planned : write.plan (pool.record proxy.index) with
    | error found =>
        rw [planned] at ended
        cases ended
        exact .unwritten fun _ => rfl
    | ok edit =>
        rw [planned] at ended
        cases edit_error seated ended with
        | beforehand journalOnly _ =>
            refine .unwritten fun other => ?_
            rw [journalOnly]
            rfl
        | afterwards told returned edited telling =>
            exact .written told planned returned edited telling
        | within broken edited =>
            rcases FieldWrite.plan_allOrNothing planned with
              allOrNothing | ⟨point, delta, add, rfl, whole, rfl⟩
            · obtain rfl := allOrNothing _ _ _ broken
              exact .unwritten ((Edited.refl seated proxy.index).sameRecords edited seated)
            · rcases Point.run_shift_error whole broken with
                rfl | ⟨rfl, count, coordinates, straddles, decoded, rfl⟩
              · exact .unwritten ((Edited.refl seated proxy.index).sameRecords edited seated)
              · rw [seated.size_shown] at straddles
                exact .halfMoved rfl rfl straddles decoded edited
  · rw [writeField_of_foreign own] at ended
    cases ended
    exact .unwritten fun _ => rfl

/-- A write to a field that ends in a fault has changed no record, but in two cases: all of it
is written and a change listener that was told of the record afterwards ends in the fault, or
it is a move of a point that lies partly inside the record, which moves the axes inside. -/
theorem broken_off_writes_leave_records (commands : List Command) (proxy : Proxy)
    (write : FieldWrite) :
    OfEveryKind fun _ _ _ opened => ∀ fault final,
      writeField proxy write (opened.run commands).2 = .error fault final →
        WriteBreaks (opened.run commands).2 proxy write fault final := by
  apply ofEveryKind
  intro σ _ _ id layout store config sound fits fault final ended
  have seated : ((blank id layout store config).run commands).2.Seated :=
    (seated_blank sound fits).run (orderly_blank sound id layout config) commands
  exact writeField_error seated ended

/-- The last coordinates of a point that starts in a particle lie outside of it. -/
theorem straddling_move_breaks_off :
    ∃ layout pool final, Fixture.particle.layout = .ok layout ∧
      ofConfig ⟨0⟩ layout {} = .ok pool ∧
      let commands : List Command := [.create (.unbound ⟨0⟩)]
      let write : FieldWrite := .move ⟨⟨16, 2⟩⟩ [.one, .one]
      writeField ⟨⟨0⟩, 0⟩ write (pool.run commands).2 = .error .byteRange final ∧
        WriteBreaks (pool.run commands).2 ⟨⟨0⟩, 0⟩ write .byteRange final := by
  have opened : ∃ layout pool final, Fixture.particle.layout = .ok layout ∧
      ofConfig ⟨0⟩ layout {} = .ok pool ∧
      writeField ⟨⟨0⟩, 0⟩ (.move ⟨⟨16, 2⟩⟩ [.one, .one])
        (pool.run [.create (.unbound ⟨0⟩)]).2 = .error .byteRange final :=
    ⟨_, _, _, rfl, rfl, rfl⟩
  rcases opened with ⟨layout, pool, final, built, opened, ended⟩
  exact ⟨layout, pool, final, built, opened, ended,
    (broken_off_writes_leave_records _ _ _).1 _ _ _ _ _ opened _ _ ended⟩

/-- A move of a point that starts in a particle and ends outside of it ends in a fault when the
first coordinate has been moved. -/
theorem straddling_move_changes_record :
    ∃ layout pool, Fixture.particle.layout = .ok layout ∧
      ofConfig ⟨0⟩ layout {} = .ok pool ∧
      let made := (pool.step (.create (.unbound ⟨0⟩))).2
      let moved := writeField ⟨⟨0⟩, 0⟩ (.move ⟨⟨16, 2⟩⟩ [.one, .one]) made
      answerOf moved = .error .byteRange ∧ (stateLeft moved).record 0 ≠ made.record 0 := by
  refine ⟨_, _, rfl, rfl, ?_, ?_⟩ <;> decide +kernel

end Pool

end RecordPool
