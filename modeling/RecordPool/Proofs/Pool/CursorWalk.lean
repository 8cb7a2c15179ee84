import RecordPool.Fixtures
import RecordPool.Pool.Cursor
import RecordPool.Proofs.IndexSet.Walk
import RecordPool.Proofs.Pool.Opening
import RecordPool.Proofs.Pool.Structure

/-!
# Cursors over a pool that changes

A cursor steps through the live records of a pool that is used meanwhile.  While no record
comes or goes, its steps yield the live records in ascending order, each once, and nothing
after the last of them.  Once records came or went, every step refuses and tells how many
times that happened, whatever the live records are by then.
-/

namespace RecordPool.Pool

variable {σ : Type} [Store σ]

/-- A pool and a cursor over it. -/
structure Walk (σ : Type) where
  pool : Pool σ
  cursor : Cursor

namespace Walk

/-- What happens during a walk: something is asked of the pool, or the cursor steps. -/
inductive Event where
  | command (command : Command)
  | advanceId
  | advance (proxy : Proxy)

/-- A walk before its first step. -/
def start (pool : Pool σ) : Walk σ :=
  ⟨pool, Cursor.start pool⟩

/-- The walk after an event. -/
def after (walk : Walk σ) : Event → Walk σ
  | .command command => { walk with pool := (walk.pool.step command).2 }
  | .advanceId =>
      { walk with cursor := stateLeft (Cursor.advanceId walk.pool walk.cursor) }
  | .advance proxy =>
      { walk with cursor := stateLeft (Cursor.advance walk.pool proxy walk.cursor) }

/-- The walk after events in order. -/
def run (walk : Walk σ) : List Event → Walk σ
  | [] => walk
  | event :: rest => (walk.after event).run rest

/-- Whether an event makes records come or go. -/
def restructuredBy (walk : Walk σ) : Event → Bool
  | .command command => walk.pool.restructures command
  | _ => false

/-- How many of the events make records come or go. -/
def changes (walk : Walk σ) : List Event → Nat
  | [] => 0
  | event :: rest => (walk.restructuredBy event).toNat + (walk.after event).changes rest

/-- Whether an event is a step of the cursor. -/
def Event.isStep : Event → Bool
  | .command _ => false
  | _ => true

/-- How many of the events are steps of the cursor. -/
def steps (events : List Event) : Nat :=
  events.countP Event.isStep

end Walk

namespace Cursor

omit [Store σ] in
/-- A cursor that is outdated stays where it is and refuses. -/
theorem advanceId_of_outdated {pool : Pool σ} {cursor : Cursor}
    (outdated : pool.version ≠ cursor.version) :
    advanceId pool cursor =
      .error (.concurrentModification cursor.version pool.version) cursor := by
  unfold advanceId
  rw [if_pos outdated]

omit [Store σ] in
/-- A cursor that is not outdated takes the first of the records that are left. -/
theorem advanceId_of_current {pool : Pool σ} {cursor : Cursor}
    (current : pool.version = cursor.version) :
    answerOf (advanceId pool cursor) =
        .ok (pool.slab.live.membersFrom cursor.next).head? ∧
      (stateLeft (advanceId pool cursor)).version = cursor.version ∧
      pool.slab.live.membersFrom (stateLeft (advanceId pool cursor)).next =
        (pool.slab.live.membersFrom cursor.next).tail := by
  unfold advanceId
  rw [if_neg (not_not_intro current), Slab.nextLive?, ← IndexSet.nextFrom?_eq_head?]
  cases found : pool.slab.live.nextFrom? cursor.next with
  | none =>
      have nothing : pool.slab.live.membersFrom cursor.next = [] := by
        rw [← List.head?_eq_none_iff, ← IndexSet.nextFrom?_eq_head?]
        exact found
      refine ⟨rfl, rfl, ?_⟩
      rw [stateLeft_ok, nothing]
      rfl
  | some index => exact ⟨rfl, rfl, IndexSet.membersFrom_next found⟩

omit [Store σ] in
/-- Whether its proxy is refused or not, a cursor takes the step. -/
theorem stateLeft_advance (pool : Pool σ) (proxy : Proxy) (cursor : Cursor) :
    stateLeft (advance pool proxy cursor) = stateLeft (advanceId pool cursor) := by
  unfold advance
  rw [bind_apply]
  cases advanceId pool cursor with
  | error error left => rfl
  | ok found left =>
      cases found with
      | none => rfl
      | some id =>
          rw [stateLeft_map]
          cases pool.lookUp id proxy <;> rfl

omit [Store σ] in
/-- A live record is found through a proxy of the pool. -/
theorem lookUp_of_live {pool : Pool σ} {proxy : Proxy} {id : Nat}
    (own : proxy.owner = pool.id) (isLive : pool.isLive id = true) :
    pool.lookUp id proxy = .ok (proxy.pointAt id) := by
  rw [lookUp_of_own own, isLive, Bool.not_true, Bool.and_false]
  rfl

omit [Store σ] in
/-- A cursor steps to live records only. -/
theorem isLive_of_advanceId {pool : Pool σ} {cursor left : Cursor} {id : Nat}
    (stepped : advanceId pool cursor = .ok (some id) left) : pool.isLive id = true := by
  unfold advanceId at stepped
  by_cases outdated : pool.version ≠ cursor.version
  · rw [if_pos outdated] at stepped
    cases stepped
  · rw [if_neg outdated] at stepped
    cases next : pool.slab.nextLive? cursor.next with
    | none =>
        rw [next] at stepped
        cases stepped
    | some index =>
        rw [next] at stepped
        cases stepped
        exact (IndexSet.nextFrom?_eq_some_iff.mp next).1

omit [Store σ] in
/-- A proxy of the pool is pointed at the record that the cursor steps to. -/
theorem answerOf_advance {pool : Pool σ} {proxy : Proxy} (own : proxy.owner = pool.id)
    (cursor : Cursor) :
    answerOf (advance pool proxy cursor) =
      Option.map proxy.pointAt <$> answerOf (advanceId pool cursor) := by
  unfold advance
  rw [bind_apply]
  cases stepped : advanceId pool cursor with
  | error error left => rfl
  | ok found left =>
      cases found with
      | none => rfl
      | some id =>
          simp only [map_apply, lookUp_of_live own (isLive_of_advanceId stepped)]
          rfl

end Cursor

variable [LawfulStore σ]

/-- What is so after some steps of a cursor and some changes of what is live since it was
made: the version counts the changes, and before the first of them the cursor has the
records left that it has not stepped to. -/
structure Walk.Follows (made : Pool σ) (walk : Walk σ) (steps changes : Nat) : Prop where
  orderly : ∃ live, walk.pool.slab.Orderly live
  version_eq : walk.pool.version = made.version + changes
  cursor_version_eq : walk.cursor.version = made.version
  live_eq : changes = 0 → walk.pool.slab.live = made.slab.live
  left_eq : changes = 0 →
    walk.pool.slab.live.membersFrom walk.cursor.next = made.liveIds.drop steps

namespace Walk

variable {made : Pool σ} {walk : Walk σ} {steps changes : Nat}

theorem Follows.start {live : Finset Nat} (orderly : made.slab.Orderly live) :
    Follows made (Walk.start made) 0 0 where
  orderly := ⟨live, orderly⟩
  version_eq := rfl
  cursor_version_eq := rfl
  live_eq _ := rfl
  left_eq _ := rfl

theorem Follows.command (follows : Follows made walk steps changes) (command : Command) :
    Follows made { walk with pool := (walk.pool.step command).2 } steps
      ((walk.pool.restructures command).toNat + changes) := by
  rcases follows.orderly with ⟨live, orderly⟩
  rcases step_cases orderly command with ⟨counts, version, after⟩ | ⟨counts, storeOnly⟩
  · rw [counts]
    constructor
    · exact after
    · calc
        (walk.pool.step command).2.slab.version
            = walk.pool.version + 1 := version
        _ = made.version + changes + 1 := by rw [follows.version_eq]
        _ = made.version + (1 + changes) := by omega
    · exact follows.cursor_version_eq
    · intro noChange
      exact absurd noChange (by simp)
    · intro noChange
      exact absurd noChange (by simp)
  · have same : (walk.pool.step command).2.slab.live = walk.pool.slab.live := storeOnly.live_eq
    rw [counts, Bool.toNat_false, Nat.zero_add]
    constructor
    · exact ⟨live, orderly.storeOnly storeOnly⟩
    · exact storeOnly.version_eq.trans follows.version_eq
    · exact follows.cursor_version_eq
    · intro noChange
      exact same.trans (follows.live_eq noChange)
    · intro noChange
      rw [same]
      exact follows.left_eq noChange

/-- A step of the cursor. -/
theorem Follows.step (follows : Follows made walk steps changes) :
    Follows made { walk with cursor := stateLeft (Cursor.advanceId walk.pool walk.cursor) }
      (steps + 1) changes := by
  by_cases current : walk.pool.version = walk.cursor.version
  · rcases Cursor.advanceId_of_current current with ⟨-, version, left⟩
    constructor
    · exact follows.orderly
    · exact follows.version_eq
    · exact version.trans follows.cursor_version_eq
    · exact follows.live_eq
    · intro noChange
      rw [left, follows.left_eq noChange, List.tail_drop]
  · have changed : changes ≠ 0 := by
      rintro rfl
      apply current
      rw [follows.version_eq, follows.cursor_version_eq]
      rfl
    rw [Cursor.advanceId_of_outdated current]
    constructor
    · exact follows.orderly
    · exact follows.version_eq
    · exact follows.cursor_version_eq
    · exact follows.live_eq
    · intro noChange
      exact absurd noChange changed

theorem Follows.after (follows : Follows made walk steps changes) (event : Event) :
    Follows made (walk.after event) (steps + event.isStep.toNat)
      ((walk.restructuredBy event).toNat + changes) := by
  cases event with
  | command command => exact follows.command command
  | advanceId =>
      simp only [restructuredBy, Bool.toNat_false, Nat.zero_add]
      exact follows.step
  | advance proxy =>
      simp only [restructuredBy, Bool.toNat_false, Nat.zero_add, Walk.after,
        Cursor.stateLeft_advance]
      exact follows.step

theorem Follows.run (follows : Follows made walk steps changes) (events : List Event) :
    Follows made (walk.run events) (steps + Walk.steps events) (walk.changes events + changes) := by
  induction events generalizing walk steps changes with
  | nil =>
      rw [Walk.run, Walk.changes, Nat.zero_add]
      exact follows
  | cons event rest ih =>
      have further := ih (follows.after event)
      have stepsEq : steps + event.isStep.toNat + Walk.steps rest =
          steps + Walk.steps (event :: rest) := by
        rw [Walk.steps, Walk.steps, List.countP_cons, Nat.add_assoc]
        cases event.isStep <;> simp [Nat.add_comm]
      have changesEq : (walk.after event).changes rest +
          ((walk.restructuredBy event).toNat + changes) =
            walk.changes (event :: rest) + changes := by
        rw [Walk.changes]
        omega
      rw [stepsEq, changesEq] at further
      exact further

/-- How the next step of the cursor is answered. -/
theorem Follows.answer (follows : Follows made walk steps changes) :
    answerOf (Cursor.advanceId walk.pool walk.cursor) =
      if changes = 0 then
        .ok made.liveIds[steps]?
      else
        .error (.concurrentModification made.version (made.version + changes)) := by
  by_cases noChange : changes = 0
  · have current : walk.pool.version = walk.cursor.version := by
      rw [follows.version_eq, follows.cursor_version_eq, noChange]
      rfl
    rw [if_pos noChange, (Cursor.advanceId_of_current current).1, follows.left_eq noChange,
      List.head?_drop]
  · have outdated : walk.pool.version ≠ walk.cursor.version := by
      rw [follows.version_eq, follows.cursor_version_eq]
      omega
    rw [if_neg noChange, Cursor.advanceId_of_outdated outdated, follows.version_eq,
      follows.cursor_version_eq]
    rfl

end Walk

/-! ## The walk of a cursor -/

/-- A cursor made now steps through the live ids in ascending order, each once, and to
nothing after the last of them, as long as what is live stays; once it changed, every step
refuses with the number of changes. -/
def CursorFollows (made : Pool σ) : Prop :=
  made.liveIds.Pairwise (· < ·) ∧ (∀ id, id ∈ made.liveIds ↔ made.isLive id = true) ∧
  ∀ events : List Walk.Event,
    let walk := (Walk.start made).run events
    let steps := Walk.steps events
    let changes := (Walk.start made).changes events
    (changes = 0 → walk.pool.liveIds = made.liveIds) ∧
    (answerOf (Cursor.advanceId walk.pool walk.cursor) =
      if changes = 0 then
        .ok made.liveIds[steps]?
      else
        .error (.concurrentModification made.version (made.version + changes))) ∧
    ∀ index, let proxy : Proxy := ⟨walk.pool.id, index⟩
      answerOf (Cursor.advance walk.pool proxy walk.cursor) =
        if changes = 0 then
          .ok (made.liveIds[steps]?.map proxy.pointAt)
        else
          .error (.concurrentModification made.version (made.version + changes))

theorem cursorFollows_of_orderly {made : Pool σ} {live : Finset Nat}
    (orderly : made.slab.Orderly live) : CursorFollows made := by
  refine ⟨IndexSet.pairwise_toList _, fun _ => mem_liveIds_iff, ?_⟩
  intro events
  have follows := (Walk.Follows.start orderly).run events
  rw [Nat.zero_add, Nat.add_zero] at follows
  refine ⟨?_, follows.answer, ?_⟩
  · intro noChange
    exact congrArg IndexSet.toList (follows.live_eq noChange)
  · intro index proxy
    rw [Cursor.answerOf_advance rfl, follows.answer]
    split <;> rfl

/-- Cursors follow what is live in every pool, whenever they are made. -/
theorem all_cursors_follow :
    OfEveryKind fun _ _ _ pool => ∀ commands, CursorFollows (pool.run commands).2 := by
  apply ofEveryKind
  intro σ _ _ id layout store config sound _ commands
  have orderly : (blank id layout store config).slab.Orderly ∅ :=
    ⟨Slab.Accounts.create store config.policy, sound, Nat.zero_le _⟩
  rcases run_orderly orderly commands with ⟨live, orderlyAfter⟩
  exact cursorFollows_of_orderly orderlyAfter

/-- Cursors made after a record was deleted, in a pool of standard configuration. -/
theorem default_cursors_follow :
    ∃ layout pool, Fixture.int.layout = .ok layout ∧ ofConfig ⟨0⟩ layout {} = .ok pool ∧
      CursorFollows
        (pool.run [.create (.unbound ⟨0⟩), .create (.unbound ⟨0⟩), .deleteId 0]).2 := by
  have opened : ∃ layout pool, Fixture.int.layout = .ok layout ∧
      ofConfig ⟨0⟩ layout {} = .ok pool := ⟨_, _, rfl, rfl⟩
  rcases opened with ⟨layout, pool, built, opened⟩
  exact ⟨layout, pool, built, opened, all_cursors_follow.1 _ _ _ _ _ opened _⟩

/-- A creation that fails in its initializer has had a record allotted, and outdates the
cursors made before it. -/
theorem failed_creation_outdates_cursor :
    ∃ layout pool, Fixture.int.layout = .ok layout ∧ ofConfig ⟨0⟩ layout {} = .ok pool ∧
      let made := (pool.step (.setInitializer (some (RecordWrite.editAll [.idAt 0])))).2
      let created := made.step (.create (.unbound ⟨0⟩))
      created.1 = .error (.fault .byteRange) ∧
      created.2.liveIds = [0] ∧
      answerOf (Cursor.advanceId created.2 (Cursor.start made)) =
        .error (.concurrentModification 0 1) := by
  refine ⟨_, _, rfl, rfl, ?_, ?_, ?_⟩
  · rfl
  · decide +kernel
  · rfl

end RecordPool.Pool
