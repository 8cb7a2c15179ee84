import RecordPool.Proofs.Pool.CursorWalk
import RecordPool.Proofs.Pool.Ownership

/-!
# Cursor steps that a pool refuses

A cursor steps before the pool looks at whose the proxy is.  A step with a proxy of another
pool is refused, but the record it came to lies behind the cursor from then on.  While no
record comes or goes, every step therefore uses up one live record in ascending order, and
a record that a refused step came to is returned by none.
-/

namespace RecordPool.Pool

variable {σ : Type} [Store σ]

namespace Walk

/-- Whether an event is a step of the cursor that the pool of an identity does not refuse
for its proxy. -/
def Event.isAccepted (owner : PoolId) : Event → Bool
  | .command _ => false
  | .advanceId => true
  | .advance proxy => proxy.owner == owner

/-- The record that an event returns. -/
def returnedBy (walk : Walk σ) : Event → Option Nat
  | .command _ => none
  | .advanceId => (answerOf (Cursor.advanceId walk.pool walk.cursor)).toOption.join
  | .advance proxy =>
      (answerOf (Cursor.advance walk.pool proxy walk.cursor)).toOption.join.map Proxy.index

/-- The records that events return, in order. -/
def returned (walk : Walk σ) : List Event → List Nat
  | [] => []
  | event :: rest => (walk.returnedBy event).toList ++ (walk.after event).returned rest

/-- The steps among some events, each with the record it comes to if they come to the given
ones in order. -/
def encounters (ids : List Nat) (events : List Event) : List (Nat × Event) :=
  ids.zip (events.filter Event.isStep)

/-- The records of the encounters that the pool of an identity accepts. -/
def accepted (owner : PoolId) (encounters : List (Nat × Event)) : List Nat :=
  (encounters.filter fun encounter => encounter.2.isAccepted owner).map Prod.fst

end Walk

namespace Cursor

variable {pool : Pool σ} {cursor : Cursor} {proxy : Proxy}

omit [Store σ] in
/-- A cursor that is not outdated moves past the first of the records that are left. -/
theorem advanceId_eq (current : pool.version = cursor.version) :
    advanceId pool cursor =
      match (pool.slab.live.membersFrom cursor.next).head? with
      | none => .ok none cursor
      | some id => .ok (some id) { cursor with next := id + 1 } := by
  rw [← IndexSet.nextFrom?_eq_head?]
  exact if_neg (not_not_intro current)

omit [Store σ] in
/-- A cursor that has no record left stays where it is, whosever the proxy is. -/
theorem advance_of_nothing_left (current : pool.version = cursor.version)
    (nothing : (pool.slab.live.membersFrom cursor.next).head? = none) (proxy : Proxy) :
    advance pool proxy cursor = .ok none cursor := by
  rw [advance, bind_apply, advanceId_eq current, nothing]
  rfl

omit [Store σ] in
/-- A cursor that has a record left moves past it, and only then is the proxy looked at. -/
theorem advance_of_left (current : pool.version = cursor.version) {id : Nat}
    (left : (pool.slab.live.membersFrom cursor.next).head? = some id) (proxy : Proxy) :
    advance pool proxy cursor =
      if proxy.owner = pool.id then
        .ok (some (proxy.pointAt id)) { cursor with next := id + 1 }
      else
        .error (.foreignProxy proxy.owner pool.id) { cursor with next := id + 1 } := by
  have stepped : advanceId pool cursor = .ok (some id) { cursor with next := id + 1 } := by
    rw [advanceId_eq current, left]
  rw [advance, bind_apply, stepped]
  by_cases own : proxy.owner = pool.id
  · rw [if_pos own]
    simp only [map_apply, lookUp_of_live own (isLive_of_advanceId stepped)]
    rfl
  · rw [if_neg own]
    simp only [map_apply, lookUp_of_foreign own]
    rfl

end Cursor

variable [LawfulStore σ] {made : Pool σ} {walk : Walk σ} {steps : Nat}

namespace Walk

omit [LawfulStore σ] in
@[simp]
theorem after_id (walk : Walk σ) (event : Event) : (walk.after event).pool.id = walk.pool.id := by
  cases event with
  | command command => exact step_id walk.pool command
  | advanceId => rfl
  | advance proxy => rfl

omit [LawfulStore σ] in
theorem run_id (walk : Walk σ) (events : List Event) :
    (walk.run events).pool.id = walk.pool.id := by
  induction events generalizing walk with
  | nil => rfl
  | cons event rest ih => rw [run, ih, after_id]

/-- The next record is returned by a step that is not refused, and by nothing else. -/
theorem Follows.returnedBy_eq (follows : Follows made walk steps 0) (event : Event) :
    walk.returnedBy event =
      if event.isAccepted walk.pool.id then made.liveIds[steps]? else none := by
  have stepped : answerOf (Cursor.advanceId walk.pool walk.cursor) = .ok made.liveIds[steps]? :=
    follows.answer
  cases event with
  | command command => rfl
  | advanceId =>
      rw [returnedBy, stepped]
      rfl
  | advance proxy =>
      by_cases own : proxy.owner = walk.pool.id
      · simp [returnedBy, Event.isAccepted, own, Cursor.answerOf_advance own, stepped,
          Except.toOption, Proxy.pointAt, Function.comp_def]
      · simp only [returnedBy, Event.isAccepted, beq_iff_eq, own, if_false]
        cases outcome : Cursor.advance walk.pool proxy walk.cursor with
        | error error left => rfl
        | ok pointed left =>
            cases pointed with
            | none => rfl
            | some pointed => exact absurd outcome (advance_of_foreign own _ _ _)

/-- Of the records that were left, those are returned that the steps come to whose proxies
are not refused. -/
theorem Follows.returned_eq (follows : Follows made walk steps 0) (events : List Event)
    (stays : walk.changes events = 0) :
    walk.returned events =
      accepted walk.pool.id (encounters (made.liveIds.drop steps) events) := by
  induction events generalizing walk steps with
  | nil => simp [returned, accepted, encounters]
  | cons event rest ih =>
      have keeps : walk.restructuredBy event = false ∧ (walk.after event).changes rest = 0 := by
        simpa [Walk.changes] using stays
      have further : Follows made (walk.after event) (steps + event.isStep.toNat) 0 := by
        simpa [keeps.1] using follows.after event
      rw [returned, ih further keeps.2, follows.returnedBy_eq, after_id]
      cases stepping : event.isStep with
      | false =>
          have notAccepted : event.isAccepted walk.pool.id = false := by
            cases event with
            | command command => rfl
            | advanceId => cases stepping
            | advance proxy => cases stepping
          simp [notAccepted, encounters, stepping]
      | true =>
          -- The step comes to the first of the records that are left, if there is one.
          cases next : made.liveIds[steps]? with
          | none =>
              have nothing : made.liveIds.length ≤ steps := List.getElem?_eq_none_iff.mp next
              have nothingLater : made.liveIds.length ≤ steps + 1 := Nat.le_succ_of_le nothing
              simp [encounters, accepted, List.drop_of_length_le, nothing, nothingLater]
          | some id =>
              obtain ⟨inside, isNext⟩ := List.getElem?_eq_some_iff.mp next
              have split : made.liveIds.drop steps = id :: made.liveIds.drop (steps + 1) := by
                rw [List.drop_eq_getElem_cons inside, isNext]
              rw [split]
              cases isAccepted : event.isAccepted walk.pool.id <;>
                simp [encounters, accepted, stepping, isAccepted]

end Walk

/-- All the records of some encounters are accepted just if every encounter is. -/
theorem Walk.accepted_eq_iff {owner : PoolId} {ids : List Nat} {events : List Walk.Event}
    (enough : ids.length ≤ Walk.steps events) :
    Walk.accepted owner (Walk.encounters ids events) = ids ↔
      ∀ encounter ∈ Walk.encounters ids events, encounter.2.isAccepted owner = true := by
  have all : (Walk.encounters ids events).map Prod.fst = ids := by
    apply List.map_fst_zip
    rwa [← List.countP_eq_length_filter]
  have count : (Walk.encounters ids events).length = ids.length := by
    rw [← List.length_map Prod.fst, all]
  constructor
  · intro complete
    rw [← List.length_filter_eq_length_iff, count]
    calc
      _ = (Walk.accepted owner (Walk.encounters ids events)).length := (List.length_map _).symm
      _ = ids.length := by rw [complete]
  · intro everyOne
    rw [Walk.accepted, List.filter_eq_self.mpr everyOne, all]

/-- What a cursor made of a pool makes of steps with proxies of whatever pool, while the
records stay. -/
structure PassesRefused (made : Pool σ) (events : List Walk.Event) : Prop where
  /-- The records come in ascending order. -/
  ascending : made.liveIds.Pairwise (· < ·)
  /-- The live records are those that are stepped to. -/
  mem_iff : ∀ id, id ∈ made.liveIds ↔ made.isLive id = true
  /-- Each step comes to the next live record, and returns it unless it is refused. -/
  returned_eq : (Walk.start made).returned events =
    Walk.accepted made.id (Walk.encounters made.liveIds events)
  /-- The next step moves the cursor past a record, also if it is refused for its proxy. -/
  passes : ∀ (proxy : Proxy) (id : Nat), made.liveIds[Walk.steps events]? = some id →
    let walk := (Walk.start made).run events
    Cursor.advance walk.pool proxy walk.cursor =
      if proxy.owner = made.id then
        .ok (some (proxy.pointAt id)) { walk.cursor with next := id + 1 }
      else
        .error (.foreignProxy proxy.owner made.id) { walk.cursor with next := id + 1 }
  /-- After as many steps as there are records there is nothing left, for any proxy. -/
  ends : made.liveIds.length ≤ Walk.steps events → ∀ proxy : Proxy,
    let walk := (Walk.start made).run events
    Cursor.advance walk.pool proxy walk.cursor = .ok none walk.cursor
  /-- When there is nothing left, all records have been returned just if no step that came
  to one was refused. -/
  complete_iff : made.liveIds.length ≤ Walk.steps events →
    ((Walk.start made).returned events = made.liveIds ↔
      ∀ encounter ∈ Walk.encounters made.liveIds events, encounter.2.isAccepted made.id = true)

theorem passesRefused_of_orderly {live : Finset Nat} (orderly : made.slab.Orderly live)
    {events : List Walk.Event} (stays : (Walk.start made).changes events = 0) :
    PassesRefused made events := by
  have started := Walk.Follows.start orderly
  have follows : Walk.Follows made ((Walk.start made).run events) (Walk.steps events) 0 := by
    simpa [stays] using started.run events
  have returned := started.returned_eq events stays
  have current : ((Walk.start made).run events).pool.version =
      ((Walk.start made).run events).cursor.version := by
    rw [follows.version_eq, follows.cursor_version_eq]
    rfl
  have next : (((Walk.start made).run events).pool.slab.live.membersFrom
      ((Walk.start made).run events).cursor.next).head? = made.liveIds[Walk.steps events]? := by
    rw [follows.left_eq rfl, List.head?_drop]
  have sameId : ((Walk.start made).run events).pool.id = made.id := Walk.run_id _ events
  constructor
  case ascending => exact IndexSet.pairwise_toList _
  case mem_iff => exact fun _ => mem_liveIds_iff
  case returned_eq => exact returned
  case passes =>
    intro proxy id left
    rw [← sameId]
    exact Cursor.advance_of_left current (next.trans left) proxy
  case ends =>
    intro enough proxy
    exact Cursor.advance_of_nothing_left current
      (next.trans (List.getElem?_eq_none enough)) proxy
  case complete_iff =>
    intro enough
    rw [returned]
    exact Walk.accepted_eq_iff enough

/-- In every pool, whenever its cursor is made, steps with proxies of other pools use up the
records that they come to. -/
theorem all_pass_refused_records (events : List Walk.Event) :
    OfEveryKind fun _ _ _ pool => ∀ commands,
      (Walk.start (pool.run commands).2).changes events = 0 →
        PassesRefused (pool.run commands).2 events :=
  ofEveryRun fun _ _ _ _ _ orderly stays => passesRefused_of_orderly orderly stays

/-- A walk over three records whose second step is refused for its proxy. -/
theorem default_passes_refused_record :
    ∃ layout pool, Fixture.int.layout = .ok layout ∧ ofConfig ⟨0⟩ layout {} = .ok pool ∧
      let commands : List Command := List.replicate 3 (.create (.unbound ⟨0⟩))
      let events : List Walk.Event :=
        [.advance (.unbound ⟨0⟩), .advance (.unbound ⟨1⟩), .advance (.unbound ⟨0⟩)]
      (Walk.start (pool.run commands).2).changes events = 0 ∧
        PassesRefused (pool.run commands).2 events := by
  have opened : ∃ layout pool, Fixture.int.layout = .ok layout ∧
      ofConfig ⟨0⟩ layout {} = .ok pool := ⟨_, _, rfl, rfl⟩
  rcases opened with ⟨layout, pool, built, opened⟩
  exact ⟨layout, pool, built, opened, rfl,
    (all_pass_refused_records _).1 _ _ _ _ _ opened _ rfl⟩

/-- A step that is refused for its proxy moves the cursor past the only record, and the walk
ends without having returned it. -/
theorem refused_step_loses_record :
    ∃ layout pool, Fixture.int.layout = .ok layout ∧ ofConfig ⟨0⟩ layout {} = .ok pool ∧
      let made := (pool.step (.create (.unbound ⟨0⟩))).2
      let events : List Walk.Event := [.advance (.unbound ⟨1⟩)]
      let walk := (Walk.start made).run events
      made.liveIds = [0] ∧ (Walk.start made).changes events = 0 ∧
      answerOf (Cursor.advance made (.unbound ⟨1⟩) (Cursor.start made)) =
        .error (.foreignProxy ⟨1⟩ ⟨0⟩) ∧
      stateLeft (Cursor.advance made (.unbound ⟨1⟩) (Cursor.start made)) ≠ Cursor.start made ∧
      answerOf (Cursor.advance walk.pool (.unbound ⟨0⟩) walk.cursor) = .ok none ∧
      (Walk.start made).returned events = [] := by
  refine ⟨_, _, rfl, rfl, ?_, rfl, ?_, ?_, ?_, ?_⟩ <;> decide +kernel

end RecordPool.Pool
