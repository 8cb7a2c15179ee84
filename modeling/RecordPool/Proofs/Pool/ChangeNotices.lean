import RecordPool.Fixtures
import RecordPool.Proofs.Pool.Opening
import RecordPool.Proofs.Pool.Subscriptions

/-!
# What change listeners are told

In a run in which no call ends in a fault, a change listener is told of every notifying write
that is made while it is subscribed, of the record before it and then of the record after it,
and of nothing else.
-/

namespace RecordPool.Pool

open LawfulStore

variable {σ : Type} [Store σ] {pool after : Pool σ}

section Records

variable [LawfulStore σ]

theorem editQuietly_inside {α : Type} (sound : Sound pool.slab.store) {index : Nat}
    {edit : Edit α} {value : α} (done : editQuietly index edit pool = .ok value after) :
    index < pool.capacity := by
  by_contra outside
  rw [editQuietly, onStore_apply, edit_outside sound (Nat.le_of_not_lt outside)] at done
  cases done

/-- Only a record that is there can be edited without a fault, and it is still there then. -/
theorem edit_records {α : Type} (sound : Sound pool.slab.store) {notice : Notice} {index : Nat}
    {edit : Edit α} {value : α} (done : Pool.edit notice index edit pool = .ok value after) :
    pool.record index = .ok (pool.shown index) ∧ after.record index = .ok (after.shown index) := by
  have inside : index < pool.capacity := by
    cases notice with
    | quiet => exact editQuietly_inside sound done
    | told =>
        rcases bind_eq_ok_iff.mp done with ⟨_, told, before, done⟩
        rcases bind_eq_ok_iff.mp done with ⟨_, changed, edited, -⟩
        have sameSlab : told.slab = pool.slab := by
          rw [(announce_ok before).1]
          rfl
        have soundTold : Sound told.slab.store := by
          rw [sameSlab]
          exact sound
        have insideTold := editQuietly_inside soundTold edited
        rw [capacity, sameSlab] at insideTold
        exact insideTold
  have storeOnly : Slab.StoreOnly pool.slab after.slab :=
    ((edit_elementsOnly notice index edit).of_ok done sound).storeOnly
  constructor
  · exact record_of_inside sound inside
  · exact record_of_inside storeOnly.sound (Nat.lt_of_lt_of_le inside storeOnly.capacity_le)

end Records

/-- What a call tells: exactly what it shows, to those who listen to it in the order of their
subscriptions; and what a notifying write shows are the records that are there before and
after it. -/
structure TellsExactly (call : Call σ) : Prop where
  journal_eq : call.after.journal.toList = call.before.journal.toList ++ call.tellings
  ascending : call.before.changeListeners.Pairwise
    fun earlier later => earlier.id.value < later.id.value
  newest : ∀ topic listener id, call.command = .subscribe topic listener →
    call.answer = .ok (.subscribed id) →
      ∀ subscription ∈ call.before.changeListeners, subscription.id.value < id.value
  records_eq : ∀ write proxy, call.command = .write write proxy → write.notice = .told →
    call.before.record proxy.index = .ok (call.before.shown proxy.index) ∧
      call.after.record proxy.index = .ok (call.after.shown proxy.index)

theorem call_tellsExactly [LawfulStore σ] (sound : Sound pool.slab.store)
    (registered : pool.Registered) {command : Command}
    (returned : (pool.step command).1.isFault = false) : TellsExactly (pool.call command) where
  journal_eq := step_tells pool command returned
  ascending := registered.ascending .changes
  newest topic listener id isSubscribe subscribed subscription listens := by
    cases isSubscribe
    cases subscribed
    exact registered.below .changes subscription listens
  records_eq write proxy isWrite told := by
    cases isWrite
    rcases returned_faultable rfl returned with ⟨after, written, made⟩
    by_cases own : proxy.owner = pool.id
    · rw [writeField_of_own own] at written
      cases planned : write.plan (pool.record proxy.index) with
      | error fault =>
          rw [planned] at written
          cases written
      | ok edit =>
          rw [planned] at written
          rw [made]
          exact edit_records sound written
    · rw [writeField_of_foreign own] at written
      cases written

/-- What change listeners are told in the runs of a pool in which no call ends in a fault:
every call tells exactly what it is to tell, and from its subscription on until that ends a
listener is told what the calls tell to change listeners, as far as it hears it. -/
def ChangesTold (opened : Pool σ) : Prop :=
  ∀ commands, (∀ call ∈ opened.calls commands, call.answer.isFault = false) →
    (∀ call ∈ opened.calls commands, TellsExactly call) ∧
    ∀ earlier listener later id, commands = earlier ++ .subscribe .changes listener :: later →
      let subscription := (opened.run earlier).2.call (.subscribe .changes listener)
      subscription.answer = .ok (.subscribed id) →
        (opened.run commands).2.journal.toldTo id =
          ((whileEnrolled id (subscription.after.calls later)).flatMap Call.changes).filter
            fun moment => listener.hears moment.1

theorem changesTold_of_orderly [LawfulStore σ] {opened : Pool σ} {live : Finset Nat}
    (orderly : opened.slab.Orderly live) (registered : opened.Registered) :
    ChangesTold opened := by
  intro commands returned
  constructor
  · intro call made
    rcases exists_of_mem_calls made with ⟨earlier, command, -, rfl⟩
    rcases run_orderly orderly earlier with ⟨_, orderlyThen⟩
    exact call_tellsExactly orderlyThen.sound (registered.run earlier) (returned _ made)
  · rintro earlier listener later id rfl subscription subscribed
    apply Enrolled.toldTo_run_of_subscribe registered earlier later subscribed
    intro call made _
    have member : call ∈ opened.calls (earlier ++ .subscribe .changes listener :: later) := by
      rw [calls_append]
      exact List.mem_append_right _ (List.mem_cons_of_mem _ made)
    rcases exists_of_mem_calls made with ⟨before, command, -, rfl⟩
    exact step_tells _ command (returned _ member)

/-- In all pools change listeners are told exactly of the notifying writes. -/
theorem all_tell_changes : OfEveryKind fun _ _ _ pool => ChangesTold pool := by
  apply ofEveryKind
  intro σ _ _ id layout store config sound _
  exact changesTold_of_orderly (orderly_blank sound id layout config)
    (registered_blank id layout store config)

/-- Creations, writes of both kinds and a refused deletion, with one notifying write that is made
while a change listener is subscribed. -/
def listenedRun : List Command :=
  let cell : Cell .i32 := ⟨0⟩
  let proxy : Proxy := ⟨⟨0⟩, 0⟩
  [.create (.unbound ⟨0⟩), .subscribe .lifecycle .attentive, .subscribe .changes .attentive,
    .write (.cell .told cell (7 : Int32)) proxy, .write (.cell .quiet cell (8 : Int32)) proxy,
    .deleteId 3, .unsubscribe ⟨1⟩, .write (.cell .told cell (9 : Int32)) proxy]

/-- The listener of the run above is told of one write, before it and after it. -/
theorem default_tells_changes :
    ∃ layout pool, Fixture.int.layout = .ok layout ∧ ofConfig ⟨0⟩ layout {} = .ok pool ∧
      (∀ call ∈ pool.calls listenedRun, call.answer.isFault = false) ∧
      ((pool.run listenedRun).2.journal.toldTo ⟨1⟩).map
          (fun moment => (moment.1, moment.2.id, moment.2.contents.toBytes)) =
        [(.beforeChange, 0, [0, 0, 0, 0]), (.afterChange, 0, [7, 0, 0, 0])] ∧
      ChangesTold pool := by
  have opened : ∃ layout pool, Fixture.int.layout = .ok layout ∧
      ofConfig ⟨0⟩ layout {} = .ok pool ∧
      (pool.calls listenedRun).all (fun call => !call.answer.isFault) = true ∧
      ((pool.run listenedRun).2.journal.toldTo ⟨1⟩).map
          (fun moment => (moment.1, moment.2.id, moment.2.contents.toBytes)) =
        [(.beforeChange, 0, [0, 0, 0, 0]), (.afterChange, 0, [7, 0, 0, 0])] :=
    ⟨_, _, rfl, rfl, rfl, rfl⟩
  rcases opened with ⟨layout, pool, built, opened, returned, told⟩
  refine ⟨layout, pool, built, opened, ?_, told, all_tell_changes.1 _ _ _ _ _ opened⟩
  intro call made
  have fine := List.all_eq_true.mp returned call made
  rwa [Bool.not_eq_true'] at fine

end RecordPool.Pool
