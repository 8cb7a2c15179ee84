import RecordPool.Fixtures
import RecordPool.Proofs.Pool.LifeSteps
import Mathlib.Data.List.DropRight

/-!
# What lifecycle listeners are told

A lifecycle listener that is there before the first creation can tell from what it was told
which records are live.  As long as the initializers and the lifecycle listeners return, the
events of each record are creations and deletions in turn since all records were last
forgotten, and the record is live exactly if the last of them is a creation.
-/

namespace RecordPool.Pool

open LawfulStore

/-- The phases at which a record is told of, in order. -/
def phasesOf (index : Nat) (events : List (Phase × Record)) : List Phase :=
  (events.filter fun moment => moment.2.id = index).map Prod.fst

/-- So many creations and deletions in turn, of which the first is a creation. -/
def alternation (count : Nat) : List Phase :=
  (List.range count).map fun turn => if turn % 2 = 0 then .created else .beforeDelete

theorem phasesOf_append (index : Nat) (earlier later : List (Phase × Record)) :
    phasesOf index (earlier ++ later) = phasesOf index earlier ++ phasesOf index later := by
  rw [phasesOf, List.filter_append, List.map_append]
  rfl

theorem phasesOf_of_same (phase : Phase) (record : Record) :
    phasesOf record.id [(phase, record)] = [phase] := by
  simp [phasesOf]

theorem phasesOf_of_other {index : Nat} (phase : Phase) (record : Record)
    (other : record.id ≠ index) : phasesOf index [(phase, record)] = [] := by
  simp [phasesOf, other]

theorem alternation_succ (count : Nat) :
    alternation (count + 1) =
      alternation count ++ [if count % 2 = 0 then .created else .beforeDelete] := by
  rw [alternation, List.range_succ, List.map_append]
  rfl

/-- The last is a creation exactly if they are odd in number. -/
theorem getLast?_alternation (count : Nat) :
    (alternation count).getLast? = some .created ↔ count % 2 = 1 := by
  cases count with
  | zero => exact ⟨nofun, nofun⟩
  | succ count =>
      rw [alternation_succ, List.getLast?_concat, Option.some_inj]
      by_cases even : count % 2 = 0
      · rw [if_pos even]
        exact ⟨fun _ => by omega, fun _ => rfl⟩
      · rw [if_neg even]
        exact ⟨nofun, fun odd => by omega⟩

variable {σ : Type}

/-! ## Calls since all records were forgotten -/

/-- Whether a command forgets all records. -/
def Command.clears : Command → Bool
  | .clear => true
  | _ => false

/-- Whether a command asks for a record. -/
def Command.creates : Command → Bool
  | .create _ => true
  | _ => false

/-- The calls since all records were last forgotten. -/
def sinceClear (calls : List (Call σ)) : List (Call σ) :=
  calls.rtakeWhile fun call => !call.command.clears

theorem sinceClear_of_clears {call : Call σ} (clears : call.command.clears = true)
    (calls : List (Call σ)) : sinceClear (calls ++ [call]) = [] := by
  apply List.rtakeWhile_concat_neg
  rw [clears]
  exact Bool.false_ne_true

theorem sinceClear_of_remembers {call : Call σ} (remembers : call.command.clears = false)
    (calls : List (Call σ)) : sinceClear (calls ++ [call]) = sinceClear calls ++ [call] := by
  apply List.rtakeWhile_concat_pos
  rw [remembers]
  rfl

variable [Store σ]

/-- The events that calls tell, in order. -/
def eventsOf (calls : List (Call σ)) : List (Phase × Record) :=
  calls.flatMap Call.events

theorem eventsOf_concat (calls : List (Call σ)) (call : Call σ) :
    eventsOf (calls ++ [call]) = eventsOf calls ++ call.events := by
  rw [eventsOf, List.flatMap_append, List.flatMap_singleton]
  rfl

/-- The records that a call shows: the one created as it is after the call, which is how it was
prepared, and the one deleted as it is before the call. -/
def Call.ShowsRecords (call : Call σ) : Prop :=
  ∀ moment ∈ call.events,
    (moment.1 = .created ∧ call.after.record moment.2.id = .ok moment.2 ∧
        moment.2.contents = call.before.prepared moment.2.id) ∨
      (moment.1 = .beforeDelete ∧ call.before.record moment.2.id = .ok moment.2)

variable [LawfulStore σ] {pool : Pool σ} {live : Finset Nat}

/-- The events since all records were last forgotten keep track of the live records: those of
each record are in turn, and odd in number if it is live. -/
structure Tracks (pool : Pool σ) (recent : List (Phase × Record)) (live : Finset Nat) :
    Prop where
  orderly : pool.slab.Orderly live
  alternates : ∀ index, ∃ count, phasesOf index recent = alternation count ∧
    (index ∈ live ↔ count % 2 = 1)

omit [LawfulStore σ] in
/-- What was in turn stays in turn with the event of a call. -/
theorem LifeStep.alternates {call : Call σ} {live' : Finset Nat}
    (lifeStep : LifeStep call live live') {recent : List (Phase × Record)} {index count : Nat}
    (turns : phasesOf index recent = alternation count) (odd : index ∈ live ↔ count % 2 = 1) :
    ∃ count', phasesOf index (recent ++ call.events) = alternation count' ∧
      (index ∈ live' ↔ count' % 2 = 1) := by
  rw [phasesOf_append, turns]
  cases lifeStep with
  | created fresh notLive shows _ =>
      rw [shows]
      by_cases same : fresh = index
      · subst same
        have even : count % 2 = 0 := by
          rw [odd] at notLive
          omega
        exists count + 1
        constructor
        · rw [alternation_succ, if_pos even]
          exact congrArg _ (phasesOf_of_same .created (call.after.shown fresh))
        · have isOdd : (count + 1) % 2 = 1 := by omega
          exact ⟨fun _ => isOdd, fun _ => Finset.mem_insert_self fresh live⟩
      · rw [phasesOf_of_other .created (call.after.shown fresh) same, List.append_nil]
        exists count
        constructor
        · rfl
        · rw [Finset.mem_insert, ← odd]
          exact or_iff_right (Ne.symm same)
  | deleted gone isLive shows =>
      rw [shows]
      by_cases same : gone = index
      · subst same
        have isOdd := odd.mp isLive
        have notEven : ¬ count % 2 = 0 := by omega
        exists count + 1
        constructor
        · rw [alternation_succ, if_neg notEven]
          exact congrArg _ (phasesOf_of_same .beforeDelete (call.before.shown gone))
        · constructor
          · intro stays
            exact absurd stays (Finset.notMem_erase gone live)
          · intro oddAgain
            omega
      · rw [phasesOf_of_other .beforeDelete (call.before.shown gone) same,
          List.append_nil]
        exists count
        constructor
        · rfl
        · rw [Finset.mem_erase, ← odd]
          exact and_iff_right (Ne.symm same)
  | silent shows =>
      rw [shows]
      exact ⟨count, List.append_nil _, odd⟩

/-- The events keep track of the live records from one call to the next. -/
theorem Tracks.step {calls : List (Call σ)}
    (tracks : Tracks pool (eventsOf (sinceClear calls)) live) {command : Command}
    (returns : (pool.call command).Returns) :
    ∃ live', Tracks (pool.step command).2
      (eventsOf (sinceClear (calls ++ [pool.call command]))) live' := by
  cases clears : command.clears with
  | true =>
      -- No record is live any more, and the events start anew.
      have isClear : command = .clear := by
        cases command with
        | clear => rfl
        | _ => cases clears
      subst isClear
      rw [sinceClear_of_clears clears]
      exists ∅
      constructor
      · exact tracks.orderly.clear
      · intro index
        exact ⟨0, rfl, nofun, nofun⟩
  | false =>
      have remembers : command ≠ .clear := by
        rintro rfl
        cases clears
      rcases step_life tracks.orderly remembers returns with ⟨live', orderlyAfter, lifeStep⟩
      rw [sinceClear_of_remembers clears, eventsOf_concat]
      exists live'
      constructor
      · exact orderlyAfter
      · intro index
        rcases tracks.alternates index with ⟨count, turns, odd⟩
        exact lifeStep.alternates turns odd

theorem Tracks.run {calls : List (Call σ)}
    (tracks : Tracks pool (eventsOf (sinceClear calls)) live) {commands : List Command}
    (returns : ∀ call ∈ pool.calls commands, call.Returns) :
    ∃ live', Tracks (pool.run commands).2
      (eventsOf (sinceClear (calls ++ pool.calls commands))) live' := by
  refine run_keeps (fun pool calls => ∃ live, Tracks pool (eventsOf (sinceClear calls)) live)
    ?_ ⟨live, tracks⟩ returns
  rintro pool calls command ⟨live, before⟩ returnsNow
  exact before.step returnsNow

theorem LifeStep.showsRecords {call : Call σ} {live' : Finset Nat}
    (lifeStep : LifeStep call live live') (orderly : call.before.slab.Orderly live)
    (orderlyAfter : call.after.slab.Orderly live') : call.ShowsRecords := by
  intro moment member
  cases lifeStep with
  | created index _ shows contents =>
      rw [shows] at member
      cases List.mem_singleton.mp member
      have isLive := Finset.mem_insert_self index live
      exact Or.inl ⟨rfl,
        record_of_inside orderlyAfter.sound (orderlyAfter.lt_capacity isLive), contents⟩
  | deleted index isLive shows =>
      rw [shows] at member
      cases List.mem_singleton.mp member
      exact Or.inr ⟨rfl, record_of_inside orderly.sound (orderly.lt_capacity isLive)⟩
  | silent shows =>
      rw [shows] at member
      cases member

theorem call_showsRecords (orderly : pool.slab.Orderly live) {command : Command}
    (returns : (pool.call command).Returns) : (pool.call command).ShowsRecords := by
  by_cases isClear : command = .clear
  · subst isClear
    exact nofun
  · rcases step_life orderly isClear returns with ⟨live', orderlyAfter, lifeStep⟩
    exact lifeStep.showsRecords orderly orderlyAfter

omit [LawfulStore σ] in
/-- Calls that fail, and calls that forget all records, tell no event. -/
theorem Call.events_of_silent {call : Call σ}
    (silent : call.answer.isOk = false ∨ call.command.clears = true) : call.events = [] := by
  rcases call with ⟨before, command, answer, after⟩
  rcases silent with failed | clears
  · cases answer with
    | error failure => cases command <;> rfl
    | ok reply => cases failed
  · cases command with
    | clear => rfl
    | _ => cases clears

/-- Where no record is live, only a creation makes one live. -/
theorem step_of_none_live (orderly : pool.slab.Orderly ∅) {command : Command}
    (notCreated : command.creates = false) : (pool.step command).2.slab.Orderly ∅ := by
  have notLive (id : Nat) : pool.isLive id = false := by
    apply Bool.eq_false_iff.mpr
    intro isLive
    cases (isLive_iff orderly).mp isLive
  cases command with
  | create proxy => cases notCreated
  | delete proxy =>
      by_cases own : proxy.owner = pool.id
      · rw [step_delete_of_own own, step_deleteId_of_not_live (notLive proxy.index)]
        exact orderly
      · rw [step_delete_of_foreign own]
        exact orderly
  | deleteId id =>
      rw [step_deleteId_of_not_live (notLive id)]
      exact orderly
  | clear => exact orderly.clear
  | _ => exact orderly.storeOnly (step_storeOnly orderly rfl)

theorem run_of_none_live (orderly : pool.slab.Orderly ∅) {commands : List Command}
    (noneCreated : ∀ command ∈ commands, command.creates = false) :
    (pool.run commands).2.slab.Orderly ∅ := by
  induction commands generalizing pool with
  | nil => exact orderly
  | cons command rest ih =>
      have notCreated := noneCreated command List.mem_cons_self
      apply ih (step_of_none_live orderly notCreated)
      intro other member
      exact noneCreated other (List.mem_cons_of_mem command member)

/-! ## Runs -/

/-- What a lifecycle listener can tell after some calls: it was told of their events, as far as
it hears them; failed calls and clearings have none; and since all records were last forgotten
the events of each record are creations and deletions in turn, and it is live exactly if the
last of them is a creation. -/
structure FollowsLives (id : ListenerId) (listener : Listener) (calls : List (Call σ))
    (final : Pool σ) : Prop where
  told : final.journal.toldTo id =
    (eventsOf calls).filter fun moment => listener.hears moment.1
  silent : ∀ call ∈ calls, call.answer.isOk = false ∨ call.command.clears = true →
    call.events = []
  shows : ∀ call ∈ calls, call.ShowsRecords
  alternates : ∀ index, ∃ count,
    phasesOf index (eventsOf (sinceClear calls)) = alternation count
  isLive_iff : ∀ index, final.isLive index = true ↔
    (phasesOf index (eventsOf (sinceClear calls))).getLast? = some .created

/-- What lifecycle listeners are told in the runs of a pool: those in which the initializers and
the lifecycle listeners return are followed by every lifecycle listener that is there before
the first creation and stays; what only brings in initializers and lifecycle listeners that
return makes such a run; and a record that was announced to be deleted can be taken back. -/
def LivesTold (opened : Pool σ) : Prop :=
  (∀ commands, (∀ call ∈ opened.calls commands, call.Returns) →
    ∀ earlier listener later id, commands = earlier ++ .subscribe .lifecycle listener :: later →
      let subscription := (opened.run earlier).2.call (.subscribe .lifecycle listener)
      subscription.answer = .ok (.subscribed id) →
      (∀ command ∈ earlier, command.creates = false) →
      (∀ command ∈ later, command.ends id = false) →
        FollowsLives id listener (subscription.after.calls later) (opened.run commands).2) ∧
  (∀ commands, (∀ command ∈ commands, command.Returning) →
    ∀ call ∈ opened.calls commands, call.Returns) ∧
  ∀ commands index told, (opened.run commands).2.isLive index = true →
    announce lifecycleListeners .beforeDelete index (opened.run commands).2 = .ok () told →
      ∃ slab, Slab.free index told.slab = .ok () slab

omit [LawfulStore σ] in
/-- While no command ends a subscription, it lasts for all calls. -/
theorem whileEnrolled_of_stays {id : ListenerId} {commands : List Command}
    (stays : ∀ command ∈ commands, command.ends id = false) :
    whileEnrolled id (pool.calls commands) = pool.calls commands := by
  apply List.takeWhile_eq_self_iff.mpr
  intro call made
  rcases exists_of_mem_calls made with ⟨_, command, member, rfl⟩
  change (!command.ends id) = true
  rw [stays command member]
  rfl

theorem calls_tell (orderly : pool.slab.Orderly live) {commands : List Command}
    (returns : ∀ call ∈ pool.calls commands, call.Returns) :
    ∀ call ∈ pool.calls commands,
      (call.command.topic? = some .lifecycle → call.TellsAll) ∧ call.ShowsRecords := by
  intro call made
  have returnsThen := returns call made
  rcases exists_of_mem_calls made with ⟨before, command, -, rfl⟩
  rcases run_orderly orderly before with ⟨_, orderlyThen⟩
  exact ⟨tellsAll_of_returns orderlyThen returnsThen, call_showsRecords orderlyThen returnsThen⟩

/-- From where no record is live, the events of a run tell which records are. -/
theorem tracks_of_none_live (orderly : pool.slab.Orderly ∅) {commands : List Command}
    (returns : ∀ call ∈ pool.calls commands, call.Returns) :
    ∃ live, Tracks (pool.run commands).2 (eventsOf (sinceClear (pool.calls commands))) live := by
  have tracks : Tracks pool (eventsOf (sinceClear ([] : List (Call σ)))) ∅ := by
    constructor
    · exact orderly
    · intro index
      exact ⟨0, rfl, nofun, nofun⟩
  exact tracks.run returns

theorem followsLives {opened : Pool σ} (orderly : opened.slab.Orderly ∅)
    (registered : opened.Registered) (earlier later : List Command) (listener : Listener)
    (id : ListenerId) :
    let subscription := (opened.run earlier).2.call (.subscribe .lifecycle listener)
    subscription.answer = .ok (.subscribed id) →
    (∀ call ∈ subscription.after.calls later, call.Returns) →
    (∀ command ∈ earlier, command.creates = false) →
    (∀ command ∈ later, command.ends id = false) →
      FollowsLives id listener (subscription.after.calls later)
        (opened.run (earlier ++ .subscribe .lifecycle listener :: later)).2 := by
  intro subscription subscribed returns noneCreated stays
  have orderlyThen : subscription.after.slab.Orderly ∅ :=
    step_of_none_live (run_of_none_live orderly noneCreated) rfl
  have tell := calls_tell orderlyThen returns
  have told := Enrolled.toldTo_run_of_subscribe registered earlier later subscribed
    fun call made => (tell call made).1
  have final : (opened.run (earlier ++ .subscribe .lifecycle listener :: later)).2 =
      (subscription.after.run later).2 := run_append opened earlier _
  rcases tracks_of_none_live orderlyThen returns with ⟨live, tracks⟩
  constructor
  · rw [whileEnrolled_of_stays stays] at told
    exact told
  · intro call _
    exact Call.events_of_silent
  · intro call made
    exact (tell call made).2
  · intro index
    rcases tracks.alternates index with ⟨count, turns, -⟩
    exact ⟨count, turns⟩
  · intro index
    rcases tracks.alternates index with ⟨count, turns, odd⟩
    rw [final, turns, getLast?_alternation, ← odd]
    exact isLive_iff tracks.orderly

theorem livesTold_of_orderly {opened : Pool σ} (orderly : opened.slab.Orderly ∅)
    (registered : opened.Registered) (returning : opened.Returning) : LivesTold opened := by
  constructor
  · rintro commands returns earlier listener later id rfl subscription subscribed
    apply followsLives orderly registered earlier later listener id subscribed
    intro call made
    apply returns call
    rw [calls_append]
    exact List.mem_append_right _ (List.mem_cons_of_mem _ made)
  · constructor
    · intro commands returns
      exact returning.calls orderly returns
    · intro commands index told isLive announced
      have sameSlab : told.slab = (opened.run commands).2.slab := by
        rw [(announce_ok announced).1]
        rfl
      exact ⟨_, Slab.free_of_live (sameSlab ▸ isLive)⟩

/-- In all pools lifecycle listeners are told of the lives of records, as long as the
initializers and the lifecycle listeners return. -/
theorem all_tell_lives : OfEveryKind fun _ _ _ pool => LivesTold pool := by
  apply ofEveryKind
  intro σ _ _ id layout store config sound _
  apply livesTold_of_orderly (orderly_blank sound id layout config)
    (registered_blank id layout store config)
  constructor
  · intro initializer chosen
    cases chosen
  · intro subscription listens
    cases listens

/-- What is asked of a pool before a lifecycle listener subscribes. -/
def settled : List Command :=
  [.setInitializer (some fun _ => Edit.zero)]

/-- Creations, deletions of live records and of one that is not, and a clearing. -/
def lived : List Command :=
  let proxy : Proxy := .unbound ⟨0⟩
  [.create proxy, .create proxy, .deleteId 0, .deleteId 7, .create proxy, .clear, .create proxy,
    .deleteId 0]

/-- A listener that subscribes between the two follows the lives of the records. -/
theorem default_tells_lives :
    ∃ layout pool, Fixture.int.layout = .ok layout ∧ ofConfig ⟨0⟩ layout {} = .ok pool ∧
      let subscription := (pool.run settled).2.call (.subscribe .lifecycle .attentive)
      let final := (pool.run (settled ++ .subscribe .lifecycle .attentive :: lived)).2
      (final.journal.toldTo ⟨0⟩).map (fun moment => (moment.1, moment.2.id)) =
        [(.created, 0), (.created, 1), (.beforeDelete, 0), (.created, 0), (.created, 0),
          (.beforeDelete, 0)] ∧
      FollowsLives ⟨0⟩ .attentive (subscription.after.calls lived) final := by
  have opened : ∃ layout pool, Fixture.int.layout = .ok layout ∧
      ofConfig ⟨0⟩ layout {} = .ok pool ∧
      (((pool.run (settled ++ .subscribe .lifecycle .attentive :: lived)).2.journal.toldTo
          ⟨0⟩).map fun moment => (moment.1, moment.2.id)) =
        [(.created, 0), (.created, 1), (.beforeDelete, 0), (.created, 0), (.created, 0),
          (.beforeDelete, 0)] ∧
      ((pool.run settled).2.call (.subscribe .lifecycle .attentive)).answer =
        .ok (.subscribed ⟨0⟩) := by
    refine ⟨_, _, rfl, rfl, ?_, rfl⟩
    decide +kernel
  rcases opened with ⟨layout, pool, built, opened, told, subscribed⟩
  rcases all_tell_lives.1 _ _ _ _ _ opened with ⟨livesTold, returnsAlways, -⟩
  have returning : ∀ command ∈ settled ++ .subscribe .lifecycle .attentive :: lived,
      command.Returning := by
    simp only [settled, lived, List.cons_append, List.nil_append, List.forall_mem_cons]
    exact ⟨fun _ _ => ⟨_, rfl⟩, fun _ => rfl, trivial, trivial, trivial, trivial, trivial,
      trivial, trivial, trivial, nofun⟩
  refine ⟨layout, pool, built, opened, told, ?_⟩
  apply livesTold _ (returnsAlways _ returning) settled .attentive lived ⟨0⟩ rfl subscribed
  · simp only [settled, List.forall_mem_singleton]
    rfl
  · simp only [lived, List.forall_mem_cons]
    exact ⟨rfl, rfl, rfl, rfl, rfl, rfl, rfl, rfl, nofun⟩

/-- A record whose creation ends in a fault of a listener is live, and the listeners after that
one were not told of it. -/
theorem fault_of_listener_hides_creation :
    ∃ layout pool, Fixture.int.layout = .ok layout ∧ ofConfig ⟨0⟩ layout {} = .ok pool ∧
      let cell : Cell .i32 := ⟨100⟩
      let subscribed := (pool.run
        [.subscribe .lifecycle (.reading cell), .subscribe .lifecycle .attentive]).2
      let created := subscribed.step (.create (.unbound ⟨0⟩))
      created.1 = .error (.fault .byteRange) ∧
      created.2.isLive 0 = true ∧
      created.2.journal.toldTo ⟨1⟩ = [] :=
  ⟨_, _, rfl, rfl, rfl, rfl, rfl⟩

end RecordPool.Pool
