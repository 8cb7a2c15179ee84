import RecordPool.Proofs.Pool.Calls

/-!
# What calls tell

The journal of a pool grows with every call by what that call tells: a change tells of the
record before it and after it, a creation of the record created and a deletion of the record
about to go.  Each of these is told to those who listen to it, in the order of subscription.
A call that ends in a fault may leave some of it untold, but tells nobody else.
-/

namespace RecordPool

namespace Journal

/-- What is told of a record at a phase when nobody ends in a fault. -/
def deliveries (subscriptions : List Subscription) (phase : Phase) (record : Record) :
    List Delivery :=
  (subscriptions.filter fun subscription => subscription.listener.hears phase).map
    fun subscription => ⟨subscription.id, phase, record⟩

/-- What is told of records one after another. -/
def tellings (subscriptions : List Subscription) (shown : List (Phase × Record)) :
    List Delivery :=
  shown.flatMap fun (phase, record) => deliveries subscriptions phase record

/-- What one listener is told of some deliveries. -/
def heardBy (id : ListenerId) (told : List Delivery) : List (Phase × Record) :=
  told.filterMap fun delivery =>
    if delivery.listener = id then some (delivery.phase, delivery.record) else none

theorem toldTo_eq (journal : Journal) (id : ListenerId) :
    journal.toldTo id = heardBy id journal.toList :=
  rfl

theorem tellings_cons (subscriptions : List Subscription) (moment : Phase × Record)
    (rest : List (Phase × Record)) :
    tellings subscriptions (moment :: rest) =
      deliveries subscriptions moment.1 moment.2 ++ tellings subscriptions rest :=
  rfl

theorem tellings_singleton (subscriptions : List Subscription) (phase : Phase)
    (record : Record) :
    tellings subscriptions [(phase, record)] = deliveries subscriptions phase record :=
  List.append_nil _

theorem heardBy_append (id : ListenerId) (earlier later : List Delivery) :
    heardBy id (earlier ++ later) = heardBy id earlier ++ heardBy id later :=
  List.filterMap_append

theorem deliveries_cons_of_hears {subscription : Subscription} {phase : Phase}
    (hears : subscription.listener.hears phase = true) (rest : List Subscription)
    (record : Record) :
    deliveries (subscription :: rest) phase record =
      ⟨subscription.id, phase, record⟩ :: deliveries rest phase record := by
  simp only [deliveries, List.filter_cons, hears, if_true, List.map_cons]

theorem deliveries_cons_of_not_hears {subscription : Subscription} {phase : Phase}
    (deaf : ¬ subscription.listener.hears phase = true) (rest : List Subscription)
    (record : Record) :
    deliveries (subscription :: rest) phase record = deliveries rest phase record := by
  simp only [deliveries, List.filter_cons, if_neg deaf]

/-- Telling ends at the first listener that ends in a fault; those before it were told. -/
theorem tell_spec (phase : Phase) (record : Record) (subscriptions : List Subscription)
    (journal : Journal) :
    ∃ heard, (stateLeft (tell phase record subscriptions journal)).toList =
        journal.toList ++ heard ∧
      heard <+: deliveries subscriptions phase record ∧
      (answerOf (tell phase record subscriptions journal) = .ok () →
        heard = deliveries subscriptions phase record) := by
  induction subscriptions generalizing journal with
  | nil => exact ⟨[], (List.append_nil _).symm, List.prefix_refl [], fun _ => rfl⟩
  | cons subscription rest ih =>
      simp only [tell, bind_apply, ite_action_apply]
      by_cases hears : subscription.listener.hears phase = true
      · rw [if_pos hears, deliveries_cons_of_hears hears]
        cases looked : subscription.listener.look record with
        | error fault =>
            exists []
            exact ⟨(List.append_nil _).symm, List.nil_prefix, nofun⟩
        | ok _ =>
            rcases ih (journal.push ⟨subscription.id, phase, record⟩) with
              ⟨heard, told, within, whole⟩
            exists ⟨subscription.id, phase, record⟩ :: heard
            simp only [ofExcept_ok_apply, modify_apply]
            constructor
            · rw [told, Array.toList_push, List.append_assoc]
              rfl
            · constructor
              · exact List.cons_prefix_cons.mpr ⟨rfl, within⟩
              · intro done
                rw [whole done]
      · rw [if_neg hears, deliveries_cons_of_not_hears hears]
        exact ih journal

end Journal

namespace Pool

open Journal

variable {σ : Type} [Store σ]

/-! ## What is shown of a pool -/

/-- The record that is shown at an index, zero where there is none. -/
def shown (pool : Pool σ) (index : Nat) : Record :=
  ⟨index, Elements.contents pool.slab.store index⟩

theorem shown_of_record {pool : Pool σ} {index : Nat} {record : Record}
    (found : pool.record index = .ok record) : record = pool.shown index := by
  rcases except_bind_eq_ok_iff.mp found with ⟨contents, element, made⟩
  cases made
  unfold shown Elements.contents
  rw [element]

theorem record_of_inside [LawfulStore σ] {pool : Pool σ}
    (sound : LawfulStore.Sound pool.slab.store) {index : Nat} (inside : index < pool.capacity) :
    pool.record index = .ok (pool.shown index) := by
  unfold record
  rw [LawfulStore.element_inside sound inside]
  rfl

/-- The index of the record that an edit of it is told of, if it is. -/
def announcedBy (notice : Notice) (index : Nat) : Option Nat :=
  match notice with
  | .told => some index
  | .quiet => none

/-- The index of the record that a command changes before the eyes of the change listeners,
if it does so. -/
def Command.announced? : Command → Option Nat
  | .write change proxy => announcedBy change.notice proxy.index
  | .edit notice index _ => announcedBy notice index
  | .notify index => some index
  | _ => none

/-- A record as it is in one pool and then in another. -/
def shownBetween (before after : Pool σ) : Option Nat → List (Phase × Record)
  | some index => [(.beforeChange, before.shown index), (.afterChange, after.shown index)]
  | none => []

/-- What a call tells to the change listeners: the record that is changed, as it is before the
call and as it is after it. -/
def Call.changes (call : Call σ) : List (Phase × Record) :=
  shownBetween call.before call.after call.command.announced?

/-- What a call tells to the lifecycle listeners: the record created, as it is after the call,
or the record deleted, as it was before. -/
def Call.events (call : Call σ) : List (Phase × Record) :=
  match call.command, call.answer with
  | .create _, .ok (.proxy pointed) => [(.created, call.after.shown pointed.index)]
  | .delete proxy, .ok _ => [(.beforeDelete, call.before.shown proxy.index)]
  | .deleteId id, .ok _ => [(.beforeDelete, call.before.shown id)]
  | _, _ => []

/-- What a call tells to the listeners of a topic. -/
def Call.shownTo (call : Call σ) : Topic → List (Phase × Record)
  | .changes => call.changes
  | .lifecycle => call.events

/-- What a call tells, each to those who listen to it. -/
def Call.tellings (call : Call σ) : List Delivery :=
  Journal.tellings call.before.changeListeners (call.shownTo .changes) ++
    Journal.tellings call.before.lifecycleListeners (call.shownTo .lifecycle)

/-- A call that tells all that it is to tell, and nothing else. -/
def Call.TellsAll (call : Call σ) : Prop :=
  call.after.journal.toList = call.before.journal.toList ++ call.tellings

/-- An announcement tells the record to those who listen, up to the first who ends in a
fault. -/
theorem announce_spec (listeners : Pool σ → List Subscription) (phase : Phase) (index : Nat)
    (pool : Pool σ) :
    ∃ heard, (stateLeft (announce listeners phase index pool)).journal.toList =
        pool.journal.toList ++ heard ∧
      heard <+: deliveries (listeners pool) phase (pool.shown index) ∧
      (answerOf (announce listeners phase index pool) = .ok () →
        heard = deliveries (listeners pool) phase (pool.shown index)) := by
  simp only [announce, bind_apply, get_apply, ite_action_apply]
  by_cases nobody : (listeners pool).isEmpty
  · rw [if_pos nobody, List.isEmpty_iff.mp nobody]
    exact ⟨[], (List.append_nil _).symm, List.prefix_refl [], fun _ => rfl⟩
  · rw [if_neg nobody]
    cases found : pool.record index with
    | error fault =>
        refine ⟨[], (List.append_nil _).symm, List.nil_prefix, ?_⟩
        intro done
        cases done
    | ok record =>
        have spec := tell_spec phase record (listeners pool) pool.journal
        rw [shown_of_record found] at spec ⊢
        simp only [ofExcept_ok_apply, onJournal_apply]
        cases told : tell phase (pool.shown index) (listeners pool) pool.journal with
        | ok _ journal =>
            rw [told] at spec
            exact spec
        | error fault journal =>
            rw [told] at spec
            exact spec

theorem announce_ok {listeners : Pool σ → List Subscription} {phase : Phase} {index : Nat}
    {pool after : Pool σ} (told : announce listeners phase index pool = .ok () after) :
    after = pool.withJournal after.journal ∧
      after.journal.toList =
        pool.journal.toList ++ deliveries (listeners pool) phase (pool.shown index) := by
  have journalOnly := stateLeft_announce listeners phase index pool
  rcases announce_spec listeners phase index pool with ⟨heard, grown, -, whole⟩
  rw [told] at journalOnly grown whole
  constructor
  · exact journalOnly
  · rw [← whole rfl]
    exact grown

/-! ## Calls -/

/-- What comes between a change of the slab does not change what is told, nor who is. -/
structure SlabOnly (before after : Pool σ) : Prop where
  eq : after = before.withSlab after.slab

theorem lasting_slabOnly : Lasting (SlabOnly : Pool σ → Pool σ → Prop) none where
  refl _ := ⟨rfl⟩
  trans first second third earlier later := by
    constructor
    calc
      third = second.withSlab third.slab := later.eq
      _ = (first.withSlab second.slab).withSlab third.slab := by rw [← earlier.eq]
  withSlab _ _ := ⟨rfl⟩
  announce _ nobody := by cases nobody

omit [Store σ] in
theorem SlabOnly.journal_eq {before after : Pool σ} (slabOnly : SlabOnly before after) :
    after.journal = before.journal := by
  rw [slabOnly.eq]
  rfl

omit [Store σ] in
theorem SlabOnly.listenersOf_eq {before after : Pool σ} (slabOnly : SlabOnly before after)
    (topic : Topic) : listenersOf topic after = listenersOf topic before := by
  rw [slabOnly.eq]
  cases topic <;> rfl

/-- A command without a topic tells nobody. -/
theorem journal_of_no_topic (pool : Pool σ) {command : Command}
    (nobody : command.topic? = none) : (pool.step command).2.journal = pool.journal := by
  cases confined : command.isConfined with
  | true =>
      have lasting : Lasting (SlabOnly : Pool σ → Pool σ → Prop) command.topic? := by
        rw [nobody]
        exact lasting_slabOnly
      exact (step_keeps lasting confined pool).journal_eq
  | false => exact (step_of_not_confined pool confined).1

/-- A change in three steps tells of the record before and after the middle one. -/
theorem change_tells {index : Nat} {pool told changed after : Pool σ}
    (before : tellBefore index pool = .ok () told) (slabOnly : SlabOnly told changed)
    (later : tellAfter index changed = .ok () after) :
    after.journal.toList = pool.journal.toList ++
      tellings pool.changeListeners (shownBetween pool after (some index)) := by
  rcases announce_ok before with ⟨toldEq, toldBefore⟩
  rcases announce_ok later with ⟨afterEq, toldAfter⟩
  have sameListeners : changed.changeListeners = pool.changeListeners := by
    rw [slabOnly.eq, toldEq]
    rfl
  have sameRecord : changed.shown index = after.shown index := by
    rw [afterEq]
    rfl
  rw [toldAfter, slabOnly.journal_eq, toldBefore, sameListeners, sameRecord, List.append_assoc]
  simp only [shownBetween, tellings, List.flatMap_cons, List.flatMap_nil, List.append_nil]

theorem edit_tells {α : Type} {notice : Notice} {index : Nat} {edit : Edit α} {value : α}
    {pool after : Pool σ} (done : Pool.edit notice index edit pool = .ok value after) :
    after.journal.toList = pool.journal.toList ++
      tellings pool.changeListeners (shownBetween pool after (announcedBy notice index)) := by
  cases notice with
  | quiet =>
      have slabOnly := (editQuietly_keeps lasting_slabOnly index edit).of_ok done
      rw [announcedBy, slabOnly.journal_eq]
      exact (List.append_nil _).symm
  | told =>
      rcases bind_eq_ok_iff.mp done with ⟨_, told, before, done⟩
      rcases bind_eq_ok_iff.mp done with ⟨_, changed, edited, done⟩
      rcases bind_eq_ok_iff.mp done with ⟨_, final, later, done⟩
      cases done
      exact change_tells before ((editQuietly_keeps lasting_slabOnly index edit).of_ok edited)
        later

/-- What is told by a call of which no event is told. -/
theorem tellings_of_no_events {call : Call σ} (none : call.events = []) :
    call.tellings = Journal.tellings call.before.changeListeners call.changes := by
  rw [Call.tellings, Call.shownTo, Call.shownTo, none]
  exact List.append_nil _

/-- A call that tells neither of a change nor of an event tells nothing. -/
theorem tellings_of_silent {call : Call σ} (noChanges : call.changes = [])
    (noEvents : call.events = []) : call.tellings = [] := by
  rw [tellings_of_no_events noEvents, noChanges]
  rfl

theorem tellsAll_of_silent {call : Call σ} (same : call.after.journal = call.before.journal)
    (noChanges : call.changes = []) (noEvents : call.events = []) : call.TellsAll := by
  rw [Call.TellsAll, tellings_of_silent noChanges noEvents, List.append_nil, same]

/-- A command that can only end in a fault, and does not, has carried its computation out. -/
theorem returned_faultable {command : Command} {action : EStateM Fault (Pool σ) Unit}
    {pool : Pool σ} (performs : perform command = faultable action)
    (returned : (pool.step command).1.isFault = false) :
    ∃ after, action pool = .ok () after ∧ pool.call command = ⟨pool, command, .ok .done, after⟩ := by
  have stepped := step_eq pool command
  simp only [performs, faultable, bind_apply, adaptExcept_apply] at stepped
  cases done : action pool with
  | ok _ after =>
      rw [done] at stepped
      exists after
      rw [call, stepped]
      exact ⟨rfl, rfl⟩
  | error fault left =>
      rw [stepped, done] at returned
      cases returned

theorem faultable_tells {command : Command} {action : EStateM Fault (Pool σ) Unit}
    {pool : Pool σ} (performs : perform command = faultable action)
    (noEvents : ∀ after, (⟨pool, command, .ok .done, after⟩ : Call σ).events = [])
    (tells : ∀ after, action pool = .ok () after → after.journal.toList =
      pool.journal.toList ++
        tellings pool.changeListeners (shownBetween pool after command.announced?))
    (returned : (pool.step command).1.isFault = false) : (pool.call command).TellsAll := by
  rcases returned_faultable performs returned with ⟨after, done, made⟩
  rw [made, Call.TellsAll, tellings_of_no_events (noEvents after)]
  exact tells after done

theorem create_tells {proxy : Proxy} {pool : Pool σ}
    (returned : (pool.step (.create proxy)).1.isFault = false) :
    (pool.call (.create proxy)).TellsAll := by
  cases created : create proxy pool with
  | ok pointed after =>
      rcases create_ok created with ⟨-, -, slab, prepared, -, readied, announced⟩
      rcases announce_ok announced with ⟨afterEq, told⟩
      have slabOnly := (prepare_keeps lasting_slabOnly pointed.index).of_ok readied
      have sameListeners : prepared.lifecycleListeners = pool.lifecycleListeners :=
        slabOnly.listenersOf_eq .lifecycle
      have sameRecord : prepared.shown pointed.index = after.shown pointed.index := by
        rw [afterEq]
        rfl
      rw [slabOnly.journal_eq, sameListeners, sameRecord] at told
      rw [call_eq (step_create_of_ok created)]
      exact told.trans (congrArg _ (tellings_singleton _ _ _).symm)
  | error failure left =>
      have stepped := step_create_of_error created
      cases failure with
      | fault fault =>
          rw [stepped] at returned
          cases returned
      | refused error =>
          rw [call_eq stepped]
          have same : left.journal = pool.journal := by
            rw [create_refused created]
            rfl
          exact tellsAll_of_silent same rfl rfl

theorem deleteId_tells {id : Nat} {pool : Pool σ}
    (returned : (pool.step (.deleteId id)).1.isFault = false) :
    (pool.call (.deleteId id)).TellsAll := by
  by_cases isLive : pool.isLive id = true
  · cases deleted : deleteId id pool with
    | ok _ after =>
        rcases deleteId_ok deleted with ⟨-, left, announced, rfl⟩
        rcases announce_ok announced with ⟨-, told⟩
        rw [call_eq (step_deleteId_of_ok deleted)]
        exact told.trans (congrArg _ (tellings_singleton _ _ _).symm)
    | error failure left =>
        rcases deleteId_error isLive deleted with ⟨fault, rfl, -⟩
        rw [step_deleteId_of_error deleted] at returned
        cases returned
  · rw [call_eq (step_deleteId_of_not_live (Bool.eq_false_iff.mpr isLive))]
    exact tellsAll_of_silent rfl rfl rfl

/-- A deletion through a proxy tells what the deletion of the record tells. -/
theorem events_delete {proxy : Proxy} {pool : Pool σ} (own : proxy.owner = pool.id) :
    (pool.call (.delete proxy)).events = (pool.call (.deleteId proxy.index)).events := by
  rw [call, call, step_delete_of_own own]
  cases (pool.step (.deleteId proxy.index)).1 <;> rfl

theorem delete_tells {proxy : Proxy} {pool : Pool σ}
    (returned : (pool.step (.delete proxy)).1.isFault = false) :
    (pool.call (.delete proxy)).TellsAll := by
  by_cases own : proxy.owner = pool.id
  · have sameTellings : (pool.call (.delete proxy)).tellings =
        (pool.call (.deleteId proxy.index)).tellings := by
      rw [Call.tellings, Call.shownTo, Call.shownTo, events_delete own]
      rfl
    have sameAfter : (pool.call (.delete proxy)).after =
        (pool.call (.deleteId proxy.index)).after :=
      congrArg Prod.snd (step_delete_of_own own)
    rw [step_delete_of_own own] at returned
    rw [Call.TellsAll, sameTellings, sameAfter]
    exact deleteId_tells returned
  · rw [call_eq (step_delete_of_foreign own)]
    exact tellsAll_of_silent rfl rfl rfl

/-- A call that does not end in a fault tells exactly what it is to tell. -/
theorem step_tells (pool : Pool σ) (command : Command)
    (returned : (pool.step command).1.isFault = false) : (pool.call command).TellsAll := by
  have silent (nobody : command.topic? = none) (noChanges : (pool.call command).changes = [])
      (noEvents : (pool.call command).events = []) : (pool.call command).TellsAll :=
    tellsAll_of_silent (journal_of_no_topic pool nobody) noChanges noEvents
  cases command with
  | create proxy => exact create_tells returned
  | delete proxy => exact delete_tells returned
  | deleteId id => exact deleteId_tells returned
  | write write proxy =>
      apply faultable_tells rfl (fun _ => rfl) _ returned
      intro after written
      by_cases own : proxy.owner = pool.id
      · rw [writeField_of_own own] at written
        cases planned : write.plan (pool.record proxy.index) with
        | error fault =>
            rw [planned] at written
            cases written
        | ok edit =>
            rw [planned] at written
            exact edit_tells written
      · rw [writeField_of_foreign own] at written
        cases written
  | edit notice index edit =>
      apply faultable_tells rfl (fun _ => rfl) _ returned
      intro after edited
      exact edit_tells edited
  | notify index =>
      apply faultable_tells rfl (fun _ => rfl) _ returned
      intro after notified
      rcases bind_eq_ok_iff.mp notified with ⟨_, told, before, later⟩
      exact change_tells before (lasting_slabOnly.refl told) later
  | _ => exact silent rfl rfl rfl

/-- Between two states of a pool nobody else was told of anything than the listeners of a
topic, who stayed the same. -/
structure Informs (topic : Topic) (before after : Pool σ) : Prop where
  listenersOf_eq : listenersOf topic after = listenersOf topic before
  told : ∃ heard, after.journal.toList = before.journal.toList ++ heard ∧
    ∀ delivery ∈ heard, ∃ subscription ∈ listenersOf topic before,
      subscription.id = delivery.listener

theorem lasting_informs (topic : Topic) :
    Lasting (Informs topic : Pool σ → Pool σ → Prop) (some topic) where
  refl pool := ⟨rfl, [], (List.append_nil _).symm, nofun⟩
  trans first second third earlier later := by
    rcases earlier.told with ⟨heard, grown, toWhom⟩
    rcases later.told with ⟨heardLater, grownLater, toWhomLater⟩
    constructor
    · exact later.listenersOf_eq.trans earlier.listenersOf_eq
    · exists heard ++ heardLater
      constructor
      · rw [grownLater, grown, List.append_assoc]
      · intro delivery member
        rcases List.mem_append.mp member with before | after
        · exact toWhom delivery before
        · rw [← earlier.listenersOf_eq]
          exact toWhomLater delivery after
  withSlab pool slab := by
    constructor
    · cases topic <;> rfl
    · exact ⟨[], (List.append_nil _).symm, nofun⟩
  announce other same phase index pool := by
    cases same
    constructor
    · rw [stateLeft_announce]
      cases topic <;> rfl
    · rcases announce_spec (listenersOf topic) phase index pool with ⟨heard, grown, within, -⟩
      exists heard
      constructor
      · exact grown
      · intro delivery member
        rcases List.mem_map.mp (within.subset member) with ⟨subscription, listens, rfl⟩
        exact ⟨subscription, List.mem_of_mem_filter listens, rfl⟩

/-- Whatever becomes of it, a call tells only listeners of its topic, and nobody if it has
none. -/
theorem step_informs (pool : Pool σ) (command : Command) :
    ∃ heard, (pool.step command).2.journal.toList = pool.journal.toList ++ heard ∧
      ∀ delivery ∈ heard, ∃ topic, command.topic? = some topic ∧
        ∃ subscription ∈ listenersOf topic pool, subscription.id = delivery.listener := by
  cases named : command.topic? with
  | none =>
      rw [journal_of_no_topic pool named]
      exact ⟨[], (List.append_nil _).symm, nofun⟩
  | some topic =>
      have lasting : Lasting (Informs topic : Pool σ → Pool σ → Prop) command.topic? := by
        rw [named]
        exact lasting_informs topic
      rcases (step_keeps lasting (Command.isConfined_of_topic named) pool).told with ⟨heard, grown, toWhom⟩
      exact ⟨heard, grown, fun delivery member => ⟨topic, rfl, toWhom delivery member⟩⟩

end Pool

end RecordPool
