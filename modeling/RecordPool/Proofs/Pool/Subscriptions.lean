import RecordPool.Proofs.Pool.Opening
import RecordPool.Proofs.Pool.Telling

/-!
# Subscriptions in a run

Every subscription gets an identity that no other ever has, and later subscriptions get
larger ones, so that listeners are told in the order of their identities.  While it lasts,
a listener is told exactly what the calls tell to its topic; before it began and after it
ended, nothing.
-/

namespace RecordPool

namespace Journal

theorem heardBy_deliveries (id : ListenerId) (subscriptions : List Subscription) (phase : Phase)
    (record : Record) :
    heardBy id (deliveries subscriptions phase record) =
      ((subscriptions.filter fun subscription => subscription.id = id).filter
        fun subscription => subscription.listener.hears phase).map fun _ => (phase, record) := by
  induction subscriptions with
  | nil => rfl
  | cons subscription rest ih =>
      by_cases hears : subscription.listener.hears phase = true
      · rw [deliveries_cons_of_hears hears]
        by_cases same : subscription.id = id
        · simp [heardBy, same, hears] at ih ⊢
          exact ih
        · simp [heardBy, same] at ih ⊢
          exact ih
      · rw [deliveries_cons_of_not_hears hears, ih]
        by_cases same : subscription.id = id
        · simp [same, hears]
        · simp [same]

/-- A listener of one subscription is told what it hears. -/
theorem heardBy_tellings_of_one {id : ListenerId} {subscriptions : List Subscription}
    {listener : Listener}
    (one : subscriptions.filter (fun subscription => subscription.id = id) = [⟨id, listener⟩])
    (shown : List (Phase × Record)) :
    heardBy id (tellings subscriptions shown) =
      shown.filter fun moment => listener.hears moment.1 := by
  induction shown with
  | nil => rfl
  | cons moment rest ih =>
      rw [tellings_cons, heardBy_append, heardBy_deliveries, one, ih]
      by_cases hears : listener.hears moment.1 = true
      · simp [hears]
      · simp [hears]

theorem heardBy_tellings_of_none {id : ListenerId} {subscriptions : List Subscription}
    (none : subscriptions.filter (fun subscription => subscription.id = id) = [])
    (shown : List (Phase × Record)) : heardBy id (tellings subscriptions shown) = [] := by
  induction shown with
  | nil => rfl
  | cons moment rest ih =>
      rw [tellings_cons, heardBy_append, heardBy_deliveries, none, ih]
      rfl

/-- Nobody is told in the name of another. -/
theorem heardBy_eq_nil {id : ListenerId} {told : List Delivery}
    (others : ∀ delivery ∈ told, delivery.listener ≠ id) : heardBy id told = [] := by
  apply List.filterMap_eq_nil_iff.mpr
  intro delivery member
  exact if_neg (others delivery member)

end Journal

namespace Pool

open Journal

variable {σ : Type} [Store σ] {pool : Pool σ}

theorem listenersOf_subscribe (pool : Pool σ) (topic other : Topic) (listener : Listener) :
    listenersOf other (pool.step (.subscribe topic listener)).2 =
      if topic = other then
        listenersOf other pool ++ [⟨⟨pool.nextListener⟩, listener⟩]
      else
        listenersOf other pool := by
  cases topic <;> cases other <;> rfl

theorem nextListener_subscribe (pool : Pool σ) (topic : Topic) (listener : Listener) :
    (pool.step (.subscribe topic listener)).2.nextListener = pool.nextListener + 1 := by
  cases topic <;> rfl

theorem nextListener_unsubscribe (pool : Pool σ) (id : ListenerId) :
    (pool.step (.unsubscribe id)).2.nextListener = pool.nextListener := by
  simp only [step_eq, perform, change, stateLeft_ok, unsubscribe]
  split
  · rfl
  · split <;> rfl

/-- The end of a subscription leaves those of another identity. -/
theorem listenersOf_unsubscribe (pool : Pool σ) (id : ListenerId) (topic : Topic) :
    listenersOf topic (pool.step (.unsubscribe id)).2 = listenersOf topic pool ∨
      listenersOf topic (pool.step (.unsubscribe id)).2 =
        withoutSubscription id (listenersOf topic pool) := by
  simp only [step_eq, perform, change, stateLeft_ok, unsubscribe]
  split
  · cases topic
    · exact Or.inr rfl
    · exact Or.inl rfl
  · split
    · cases topic
      · exact Or.inl rfl
      · exact Or.inr rfl
    · exact Or.inl rfl

/-- No command brings in listeners but those that subscribe. -/
theorem mem_listenersOf_step {topic : Topic} {command : Command} {subscription : Subscription}
    (member : subscription ∈ listenersOf topic (pool.step command).2) :
    subscription ∈ listenersOf topic pool ∨ command = .subscribe topic subscription.listener := by
  cases other : command.isSubscription with
  | false =>
      rw [(step_sameSubscriptions pool other).listenersOf_eq] at member
      exact Or.inl member
  | true =>
      cases command with
      | subscribe subscribed listener =>
          rw [listenersOf_subscribe] at member
          by_cases same : subscribed = topic
          · rw [if_pos same] at member
            rcases List.mem_append.mp member with before | new
            · exact Or.inl before
            · rw [List.mem_singleton.mp new, same]
              exact Or.inr rfl
          · rw [if_neg same] at member
            exact Or.inl member
      | unsubscribe id =>
          rcases listenersOf_unsubscribe pool id topic with same | without
          · rw [same] at member
            exact Or.inl member
          · rw [without] at member
            exact Or.inl (List.mem_of_mem_filter member)
      | _ => cases other

omit [Store σ] in
theorem hasSubscription_iff {id : ListenerId} {subscriptions : List Subscription} :
    hasSubscription id subscriptions = true ↔
      subscriptions.filter (fun subscription => subscription.id = id) ≠ [] := by
  rw [hasSubscription, List.any_eq_true, ne_eq, List.filter_eq_nil_iff]
  simp

omit [Store σ] in
theorem filter_withoutSubscription (id : ListenerId) (subscriptions : List Subscription) :
    (withoutSubscription id subscriptions).filter (fun subscription => subscription.id = id) =
      [] := by
  rw [withoutSubscription, List.filter_filter, List.filter_eq_nil_iff]
  simp

/-- All identities in use are below the next one, and those of a topic ascend in the order of
subscription. -/
structure Registered (pool : Pool σ) : Prop where
  ascending : ∀ topic, (listenersOf topic pool).Pairwise
    fun earlier later => earlier.id.value < later.id.value
  below : ∀ topic, ∀ subscription ∈ listenersOf topic pool,
    subscription.id.value < pool.nextListener
  told_below : ∀ delivery ∈ pool.journal.toList, delivery.listener.value < pool.nextListener

omit [Store σ] in
theorem registered_blank (id : PoolId) (layout : Layout) (store : σ) (config : Config) :
    (blank id layout store config).Registered where
  ascending topic := by cases topic <;> exact List.Pairwise.nil
  below topic _ listens := by cases topic <;> cases listens
  told_below _ told := by cases told

namespace Registered

theorem subscribe (registered : pool.Registered) (topic : Topic) (listener : Listener) :
    (pool.step (.subscribe topic listener)).2.Registered := by
  constructor
  · intro other
    rw [listenersOf_subscribe]
    split
    · rw [List.pairwise_append]
      constructor
      · exact registered.ascending other
      · constructor
        · exact List.pairwise_singleton _ _
        · intro earlier member later new
          rw [List.mem_singleton.mp new]
          exact registered.below other earlier member
    · exact registered.ascending other
  · intro other subscription member
    rw [listenersOf_subscribe] at member
    rw [nextListener_subscribe]
    split at member
    · rcases List.mem_append.mp member with before | new
      · exact Nat.lt_succ_of_lt (registered.below other subscription before)
      · rw [List.mem_singleton.mp new]
        exact Nat.lt_succ_self _
    · exact Nat.lt_succ_of_lt (registered.below other subscription member)
  · intro delivery member
    rw [journal_of_no_topic pool rfl] at member
    rw [nextListener_subscribe]
    exact Nat.lt_succ_of_lt (registered.told_below delivery member)

theorem unsubscribe (registered : pool.Registered) (id : ListenerId) :
    (pool.step (.unsubscribe id)).2.Registered := by
  have sublist (topic : Topic) :
      (listenersOf topic (pool.step (.unsubscribe id)).2).Sublist (listenersOf topic pool) := by
    rcases listenersOf_unsubscribe pool id topic with same | without
    · rw [same]
    · rw [without]
      exact List.filter_sublist
  constructor
  · intro topic
    exact (registered.ascending topic).sublist (sublist topic)
  · intro topic subscription member
    rw [nextListener_unsubscribe]
    exact registered.below topic subscription ((sublist topic).subset member)
  · intro delivery member
    rw [journal_of_no_topic pool rfl] at member
    rw [nextListener_unsubscribe]
    exact registered.told_below delivery member

theorem step (registered : pool.Registered) (command : Command) :
    (pool.step command).2.Registered := by
  cases other : command.isSubscription with
  | true =>
      cases command with
      | subscribe topic listener => exact registered.subscribe topic listener
      | unsubscribe id => exact registered.unsubscribe id
      | _ => cases other
  | false =>
      have same := step_sameSubscriptions pool other
      constructor
      · intro topic
        rw [same.listenersOf_eq]
        exact registered.ascending topic
      · intro topic
        rw [same.listenersOf_eq, same.nextListener_eq]
        exact registered.below topic
      · intro delivery member
        rcases step_informs pool command with ⟨heard, grown, toWhom⟩
        rw [grown] at member
        rw [same.nextListener_eq]
        rcases List.mem_append.mp member with before | new
        · exact registered.told_below delivery before
        · rcases toWhom delivery new with ⟨topic, -, subscription, listens, named⟩
          rw [← named]
          exact registered.below topic subscription listens

theorem run (registered : pool.Registered) (commands : List Command) :
    (pool.run commands).2.Registered := by
  induction commands generalizing pool with
  | nil => exact registered
  | cons command rest ih => exact ih (registered.step command)

end Registered

/-! ## What an identity stands for -/

/-- The subscriptions to a topic that an identity has when it stands for a listener of a
topic, or for none. -/
def rosterOf (id : ListenerId) (enrolled : Option (Topic × Listener)) (topic : Topic) :
    List Subscription :=
  match enrolled with
  | some (subscribed, listener) => if subscribed = topic then [⟨id, listener⟩] else []
  | none => []

/-- An identity that was given away and stands for a listener of a topic, or for none. -/
structure Enrolled (pool : Pool σ) (id : ListenerId) (enrolled : Option (Topic × Listener)) :
    Prop where
  filter_eq : ∀ topic,
    (listenersOf topic pool).filter (fun subscription => subscription.id = id) =
      rosterOf id enrolled topic
  below : id.value < pool.nextListener

/-- Whether a command ends the subscription of an identity. -/
def Command.ends (id : ListenerId) : Command → Bool
  | .unsubscribe other => other = id
  | _ => false

theorem Command.eq_of_ends {id : ListenerId} {command : Command} (ends : command.ends id = true) :
    command = .unsubscribe id := by
  cases command with
  | unsubscribe other => rw [of_decide_eq_true ends]
  | _ => cases ends

namespace Enrolled

variable {id : ListenerId} {enrolled : Option (Topic × Listener)} {topic : Topic}
  {listener : Listener}

/-- A listener that subscribes is the only one of its identity. -/
theorem of_subscribe (registered : pool.Registered) (topic : Topic) (listener : Listener) :
    Enrolled (pool.step (.subscribe topic listener)).2 ⟨pool.nextListener⟩
      (some (topic, listener)) := by
  have nobody (other : Topic) : (listenersOf other pool).filter
      (fun subscription => subscription.id = ⟨pool.nextListener⟩) = [] := by
    apply List.filter_eq_nil_iff.mpr
    intro subscription member same
    have below := registered.below other subscription member
    rw [of_decide_eq_true same] at below
    exact Nat.lt_irrefl _ below
  constructor
  · intro other
    rw [listenersOf_subscribe]
    by_cases same : topic = other
    · rw [if_pos same, List.filter_append, nobody other]
      simp [rosterOf, same]
    · rw [if_neg same, nobody other]
      simp [rosterOf, same]
  · rw [nextListener_subscribe]
    exact Nat.lt_succ_self _

theorem step (known : Enrolled pool id enrolled) {command : Command}
    (stays : command.ends id = false) : Enrolled (pool.step command).2 id enrolled := by
  cases other : command.isSubscription with
  | false =>
      have same := step_sameSubscriptions pool other
      constructor
      · intro topic
        rw [same.listenersOf_eq]
        exact known.filter_eq topic
      · rw [same.nextListener_eq]
        exact known.below
  | true =>
      cases command with
      | subscribe topic listener =>
          have different : (⟨pool.nextListener⟩ : ListenerId) ≠ id := by
            rintro rfl
            exact Nat.lt_irrefl _ known.below
          constructor
          · intro other
            rw [listenersOf_subscribe]
            split
            · rw [List.filter_append, known.filter_eq other]
              simp [different]
            · exact known.filter_eq other
          · rw [nextListener_subscribe]
            exact Nat.lt_succ_of_lt known.below
      | unsubscribe ended =>
          have different : ended ≠ id := of_decide_eq_false stays
          constructor
          · intro topic
            rcases listenersOf_unsubscribe pool ended topic with same | without
            · rw [same]
              exact known.filter_eq topic
            · rw [without, withoutSubscription, List.filter_filter, ← known.filter_eq topic]
              apply List.filter_congr
              intro subscription _
              by_cases same : subscription.id = id
              · simp [same, Ne.symm different]
              · simp [same]
          · rw [nextListener_unsubscribe]
            exact known.below
      | _ => cases other

/-- A subscription that is ended stands for nobody any more. -/
theorem ended (known : Enrolled pool id enrolled) :
    Enrolled (pool.step (.unsubscribe id)).2 id none := by
  have changes := known.filter_eq .changes
  have lifecycle := known.filter_eq .lifecycle
  constructor
  · intro topic
    change (listenersOf topic (pool.unsubscribe id).2).filter _ = []
    unfold unsubscribe
    by_cases hasChange : hasSubscription id pool.changeListeners = true
    · rw [if_pos hasChange]
      cases topic with
      | changes => exact filter_withoutSubscription id _
      | lifecycle =>
          have present := hasSubscription_iff.mp hasChange
          change pool.lifecycleListeners.filter _ = _
          change pool.changeListeners.filter _ = _ at changes
          rw [changes] at present
          refine lifecycle.trans ?_
          rcases enrolled with _ | ⟨subscribed, listener⟩
          · exact absurd rfl present
          · cases subscribed with
            | changes => rfl
            | lifecycle => exact absurd rfl present
    · rw [if_neg hasChange]
      have noChange : pool.changeListeners.filter (fun subscription => subscription.id = id) = [] :=
        not_not.mp fun present => hasChange (hasSubscription_iff.mpr present)
      by_cases hasLifecycle : hasSubscription id pool.lifecycleListeners = true
      · rw [if_pos hasLifecycle]
        cases topic with
        | changes => exact noChange
        | lifecycle => exact filter_withoutSubscription id _
      · rw [if_neg hasLifecycle]
        cases topic with
        | changes => exact noChange
        | lifecycle => exact not_not.mp fun present => hasLifecycle (hasSubscription_iff.mpr present)
  · rw [nextListener_unsubscribe]
    exact known.below

end Enrolled

/-! ## What a listener is told -/

/-- A command tells nothing to the listeners of another topic than its own. -/
theorem shownTo_of_other_topic {command : Command} {topic : Topic}
    (other : command.topic? ≠ some topic) : (pool.call command).shownTo topic = [] := by
  cases topic with
  | changes =>
      cases command with
      | write write proxy => exact absurd rfl other
      | edit notice index edit => exact absurd rfl other
      | notify index => exact absurd rfl other
      | _ => rfl
  | lifecycle =>
      cases command with
      | create proxy => exact absurd rfl other
      | delete proxy => exact absurd rfl other
      | deleteId id => exact absurd rfl other
      | _ => rfl

omit [Store σ] in
/-- The calls before the end of the subscription of an identity. -/
def whileEnrolled (id : ListenerId) (calls : List (Call σ)) : List (Call σ) :=
  calls.takeWhile fun call => !call.command.ends id

omit [Store σ] in
theorem whileEnrolled_cons_of_stays {id : ListenerId} {call : Call σ}
    (stays : call.command.ends id = false) (later : List (Call σ)) :
    whileEnrolled id (call :: later) = call :: whileEnrolled id later := by
  rw [whileEnrolled, List.takeWhile_cons_of_pos]
  · rfl
  · rw [stays]
    rfl

omit [Store σ] in
theorem whileEnrolled_cons_of_ends {id : ListenerId} {call : Call σ}
    (ends : call.command.ends id = true) (later : List (Call σ)) :
    whileEnrolled id (call :: later) = [] := by
  rw [whileEnrolled, List.takeWhile_cons_of_neg]
  rw [ends]
  exact Bool.false_ne_true

namespace Enrolled

variable {id : ListenerId} {topic : Topic} {listener : Listener}

theorem heardBy_tellings (known : Enrolled pool id (some (topic, listener)))
    (command : Command) :
    heardBy id (pool.call command).tellings =
      ((pool.call command).shownTo topic).filter fun moment => listener.hears moment.1 := by
  have changes := known.filter_eq .changes
  have lifecycle := known.filter_eq .lifecycle
  rw [Call.tellings, heardBy_append]
  cases topic with
  | changes =>
      have one := heardBy_tellings_of_one changes ((pool.call command).shownTo .changes)
      have none := heardBy_tellings_of_none lifecycle ((pool.call command).shownTo .lifecycle)
      exact (congrArg₂ (· ++ ·) one none).trans (List.append_nil _)
  | lifecycle =>
      have none := heardBy_tellings_of_none changes ((pool.call command).shownTo .changes)
      have one := heardBy_tellings_of_one lifecycle ((pool.call command).shownTo .lifecycle)
      exact congrArg₂ (· ++ ·) none one

/-- An identity that stands for no listener of the topic of a call is told nothing by it. -/
theorem toldTo_step_of_other {enrolled : Option (Topic × Listener)}
    (known : Enrolled pool id enrolled) {command : Command}
    (other : ∀ topic, command.topic? = some topic → rosterOf id enrolled topic = []) :
    (pool.step command).2.journal.toldTo id = pool.journal.toldTo id := by
  rcases step_informs pool command with ⟨heard, grown, toWhom⟩
  have notHim : ∀ delivery ∈ heard, delivery.listener ≠ id := by
    intro delivery member same
    rcases toWhom delivery member with ⟨topic, named, subscription, listens, toHim⟩
    have nobody := known.filter_eq topic
    rw [other topic named, List.filter_eq_nil_iff] at nobody
    exact nobody subscription listens (decide_eq_true (toHim.trans same))
  rw [toldTo_eq, toldTo_eq, grown, heardBy_append, heardBy_eq_nil notHim, List.append_nil]

/-- A call tells a listener what it shows to the topic of the listener, as far as the listener
hears it. -/
theorem toldTo_step (known : Enrolled pool id (some (topic, listener))) (command : Command)
    (tellsAll : command.topic? = some topic → (pool.call command).TellsAll) :
    (pool.step command).2.journal.toldTo id = pool.journal.toldTo id ++
      ((pool.call command).shownTo topic).filter fun moment => listener.hears moment.1 := by
  by_cases named : command.topic? = some topic
  · have told : (pool.step command).2.journal.toList =
        pool.journal.toList ++ (pool.call command).tellings := tellsAll named
    rw [toldTo_eq, toldTo_eq, told, heardBy_append, known.heardBy_tellings command]
  · rw [shownTo_of_other_topic named, List.filter_nil, List.append_nil]
    apply known.toldTo_step_of_other
    intro other namedOther
    have different : topic ≠ other := by
      rintro rfl
      exact named namedOther
    exact if_neg different

/-- An identity that stands for nobody is told nothing. -/
theorem toldTo_run_of_none (known : Enrolled pool id none) (commands : List Command) :
    (pool.run commands).2.journal.toldTo id = pool.journal.toldTo id := by
  induction commands generalizing pool with
  | nil => rfl
  | cons command rest ih =>
      have knownAfter : Enrolled (pool.step command).2 id none := by
        cases stays : command.ends id with
        | false => exact known.step stays
        | true =>
            rw [Command.eq_of_ends stays]
            exact known.ended
      exact (ih knownAfter).trans (known.toldTo_step_of_other fun _ _ => rfl)

/-- While its subscription lasts, a listener is told what the calls show to its topic, as far
as the listener hears it, and nothing afterwards. -/
theorem toldTo_run (known : Enrolled pool id (some (topic, listener))) (commands : List Command)
    (tellAll : ∀ call ∈ pool.calls commands, call.command.topic? = some topic → call.TellsAll) :
    (pool.run commands).2.journal.toldTo id = pool.journal.toldTo id ++
      ((whileEnrolled id (pool.calls commands)).flatMap fun call => call.shownTo topic).filter
        fun moment => listener.hears moment.1 := by
  induction commands generalizing pool with
  | nil => exact (List.append_nil _).symm
  | cons command rest ih =>
      have tellAllLater : ∀ call ∈ (pool.step command).2.calls rest,
          call.command.topic? = some topic → call.TellsAll := by
        intro call member
        exact tellAll call (List.mem_cons_of_mem _ member)
      cases ends : command.ends id with
      | false =>
          have told := known.toldTo_step command (tellAll (pool.call command) List.mem_cons_self)
          have toldLater := ih (known.step ends) tellAllLater
          rw [calls, whileEnrolled_cons_of_stays ends, List.flatMap_cons, List.filter_append,
            ← List.append_assoc, ← told]
          exact toldLater
      | true =>
          have silent : (pool.step command).2.journal = pool.journal := by
            rw [Command.eq_of_ends ends]
            exact journal_of_no_topic pool rfl
          have knownAfter : Enrolled (pool.step command).2 id none := by
            rw [Command.eq_of_ends ends]
            exact known.ended
          rw [calls, whileEnrolled_cons_of_ends ends, List.flatMap_nil, List.filter_nil,
            List.append_nil, ← silent]
          exact knownAfter.toldTo_run_of_none rest

/-- A listener that subscribes in a run is told what the calls show to its topic from then on,
as long as its subscription lasts. -/
theorem toldTo_run_of_subscribe {opened : Pool σ} (registered : opened.Registered)
    (earlier later : List Command) {id : ListenerId}
    (subscribed : ((opened.run earlier).2.call (.subscribe topic listener)).answer =
      .ok (.subscribed id))
    (tellAll : ∀ call ∈ ((opened.run earlier).2.call (.subscribe topic listener)).after.calls later,
      call.command.topic? = some topic → call.TellsAll) :
    (opened.run (earlier ++ .subscribe topic listener :: later)).2.journal.toldTo id =
      ((whileEnrolled id
        (((opened.run earlier).2.call (.subscribe topic listener)).after.calls later)).flatMap
          fun call => call.shownTo topic).filter fun moment => listener.hears moment.1 := by
  have registeredThen := registered.run earlier
  cases subscribed
  have known := of_subscribe registeredThen topic listener
  have nothingBefore : (((opened.run earlier).2.step (.subscribe topic listener)).2).journal.toldTo
      ⟨(opened.run earlier).2.nextListener⟩ = [] := by
    rw [journal_of_no_topic _ rfl]
    apply Journal.heardBy_eq_nil
    intro delivery member same
    have below := registeredThen.told_below delivery member
    rw [same] at below
    exact Nat.lt_irrefl _ below
  have told := known.toldTo_run later tellAll
  rw [run_append]
  exact told.trans (congrArg (· ++ _) nothingBefore)

end Enrolled

end Pool

end RecordPool
