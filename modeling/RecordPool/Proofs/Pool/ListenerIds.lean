import RecordPool.Fixtures
import RecordPool.Pool.Stats
import RecordPool.Proofs.Pool.Opening
import RecordPool.Proofs.Pool.Subscriptions

/-!
# One sequence of identities for two lists of listeners

The listeners of both topics draw their identities from one sequence, and an identity is given
once.  To end a subscription the listeners of changes are searched first and those of creations
and deletions only if it is not found there.  That takes out the right listener because no
identity is in both lists, and it leaves all others as they were.
-/

namespace RecordPool

/-- Identities of subscriptions are below this bound. -/
def ListenerId.limit : Nat := UInt32.size

namespace Pool

variable {σ : Type}

/-- The commands by which subscriptions begin. -/
def Command.subscribes : Command → Bool
  | .subscribe _ _ => true
  | _ => false

/-- The identity that a call gave to a listener, if it did. -/
def Call.givenId? (call : Call σ) : Option ListenerId :=
  match call.command, call.answer with
  | .subscribe _ _, .ok (.subscribed id) => some id
  | _, _ => none

/-- The identities that were given to listeners, in order. -/
def givenIds (calls : List (Call σ)) : List ListenerId :=
  calls.filterMap Call.givenId?

/-- Whether a call ended a subscription. -/
def Call.endsOne (call : Call σ) : Bool :=
  match call.command, call.answer with
  | .unsubscribe _, .ok (.flag true) => true
  | _, _ => false

/-- A listener that subscribed to a topic, was given its identity and was not unsubscribed
since. -/
def Stands (calls : List (Call σ)) (topic : Topic) (subscription : Subscription) : Prop :=
  ∃ earlier call later, calls = earlier ++ call :: later ∧
    call.command = .subscribe topic subscription.listener ∧
    call.answer = .ok (.subscribed subscription.id) ∧
    ∀ other ∈ later, other.command ≠ .unsubscribe subscription.id

theorem not_stands_nil (topic : Topic) (subscription : Subscription) :
    ¬ Stands ([] : List (Call σ)) topic subscription := by
  rintro ⟨earlier, call, later, split, -⟩
  exact List.append_ne_nil_of_right_ne_nil earlier (List.cons_ne_nil call later) split.symm

theorem stands_concat_iff {calls : List (Call σ)} {call : Call σ} {topic : Topic}
    {subscription : Subscription} :
    Stands (calls ++ [call]) topic subscription ↔
      (Stands calls topic subscription ∧ call.command ≠ .unsubscribe subscription.id) ∨
        (call.command = .subscribe topic subscription.listener ∧
          call.answer = .ok (.subscribed subscription.id)) := by
  constructor
  · rintro ⟨earlier, begun, later, split, command, answer, stays⟩
    rcases List.eq_nil_or_concat' later with rfl | ⟨before, last, rfl⟩
    · obtain ⟨-, same⟩ := List.append_inj' split rfl
      obtain rfl := List.head_eq_of_cons_eq same
      exact .inr ⟨command, answer⟩
    · have whole : calls ++ [call] = (earlier ++ begun :: before) ++ [last] := by
        rw [split, List.append_assoc, List.cons_append]
      obtain ⟨rfl, same⟩ := List.append_inj' whole rfl
      obtain rfl := List.head_eq_of_cons_eq same
      obtain ⟨staysBefore, staysLast⟩ := List.forall_mem_append.mp stays
      exact .inl ⟨⟨earlier, begun, before, rfl, command, answer, staysBefore⟩,
        staysLast call List.mem_cons_self⟩
  · rintro (⟨⟨earlier, begun, later, rfl, command, answer, stays⟩, staysLast⟩ | ⟨command, answer⟩)
    · refine ⟨earlier, begun, later ++ [call], ?_, command, answer, ?_⟩
      · rw [List.append_assoc, List.cons_append]
      · exact List.forall_mem_append.mpr ⟨stays, List.forall_mem_singleton.mpr staysLast⟩
    · exact ⟨calls, call, [], rfl, command, answer, fun _ none => absurd none List.not_mem_nil⟩

/-! ## The lists of a pool -/

/-- The pool with other listeners of a topic. -/
def withListenersOf (pool : Pool σ) (topic : Topic) (subscriptions : List Subscription) : Pool σ :=
  match topic with
  | .changes => { pool with changeListeners := subscriptions }
  | .lifecycle => { pool with lifecycleListeners := subscriptions }

theorem listenerCount_withListenersOf (pool : Pool σ) (topic : Topic)
    (subscriptions : List Subscription) :
    (pool.withListenersOf topic subscriptions).listenerCount + (listenersOf topic pool).length =
      pool.listenerCount + subscriptions.length := by
  cases topic <;> simp only [withListenersOf, listenerCount, listenersOf] <;> omega

theorem listenersOf_withListenersOf (pool : Pool σ) (topic other : Topic)
    (subscriptions : List Subscription) :
    listenersOf other (pool.withListenersOf topic subscriptions) =
      if topic = other then subscriptions else listenersOf other pool := by
  cases topic <;> cases other <;> rfl

/-- No identity is that of listeners of both topics. -/
def TopicsApart (pool : Pool σ) : Prop :=
  ∀ left ∈ listenersOf .changes pool, ∀ right ∈ listenersOf .lifecycle pool, left.id ≠ right.id

variable {pool : Pool σ}

theorem TopicsApart.topic_eq (apart : pool.TopicsApart) {topic other : Topic}
    {left right : Subscription} (ofTopic : left ∈ listenersOf topic pool)
    (ofOther : right ∈ listenersOf other pool) (same : left.id = right.id) : topic = other := by
  cases topic <;> cases other
  case changes.changes => rfl
  case changes.lifecycle => exact absurd same (apart left ofTopic right ofOther)
  case lifecycle.changes => exact absurd same.symm (apart right ofOther left ofTopic)
  case lifecycle.lifecycle => rfl

theorem withoutSubscription_of_none {id : ListenerId} {subscriptions : List Subscription}
    (none : ∀ subscription ∈ subscriptions, subscription.id ≠ id) :
    withoutSubscription id subscriptions = subscriptions :=
  List.filter_eq_self.mpr fun subscription member => decide_eq_true (none subscription member)

/-- Where identities ascend, no other listener is taken out. -/
theorem withoutSubscription_of_split {earlier later : List Subscription}
    {subscription : Subscription}
    (ascending : (earlier ++ subscription :: later).Pairwise
      fun before after => before.id.value < after.id.value) :
    withoutSubscription subscription.id (earlier ++ subscription :: later) = earlier ++ later := by
  obtain ⟨-, ascendingLater, below⟩ := List.pairwise_append.mp ascending
  obtain ⟨above, -⟩ := List.pairwise_cons.mp ascendingLater
  have keepsEarlier : withoutSubscription subscription.id earlier = earlier := by
    apply withoutSubscription_of_none
    intro other member same
    have less := below other member subscription List.mem_cons_self
    exact Nat.ne_of_lt less (congrArg ListenerId.value same)
  have keepsLater : withoutSubscription subscription.id later = later := by
    apply withoutSubscription_of_none
    intro other member same
    exact Nat.ne_of_gt (above other member) (congrArg ListenerId.value same)
  simp only [withoutSubscription] at keepsEarlier keepsLater ⊢
  rw [List.filter_append, keepsEarlier, List.filter_cons_of_neg (by simp), keepsLater]

theorem hasSubscription_of_mem {subscription : Subscription} {subscriptions : List Subscription}
    (member : subscription ∈ subscriptions) : hasSubscription subscription.id subscriptions = true :=
  List.any_eq_true.mpr ⟨subscription, member, decide_eq_true rfl⟩

theorem hasSubscription_eq_false {id : ListenerId} {subscriptions : List Subscription}
    (none : ∀ subscription ∈ subscriptions, subscription.id ≠ id) :
    ¬ hasSubscription id subscriptions = true := by
  intro found
  obtain ⟨subscription, member, named⟩ := List.any_eq_true.mp found
  exact none subscription member (of_decide_eq_true named)

/-! ## Single commands -/

/-- The listeners of changes are searched first. -/
theorem unsubscribe_eq (pool : Pool σ) (id : ListenerId) :
    pool.unsubscribe id =
      if hasSubscription id (listenersOf .changes pool) = true then
        (true, pool.withListenersOf .changes (withoutSubscription id (listenersOf .changes pool)))
      else if hasSubscription id (listenersOf .lifecycle pool) = true then
        (true,
          pool.withListenersOf .lifecycle (withoutSubscription id (listenersOf .lifecycle pool)))
      else
        (false, pool) :=
  rfl

/-- A listener is taken out of its list, whichever of the two that is, and nothing else
changes. -/
theorem unsubscribe_of_listed (registered : pool.Registered) (apart : pool.TopicsApart)
    {topic : Topic} {subscription : Subscription} (listed : subscription ∈ listenersOf topic pool) :
    ∃ earlier later, listenersOf topic pool = earlier ++ subscription :: later ∧
      withoutSubscription subscription.id (listenersOf topic pool) = earlier ++ later ∧
      pool.unsubscribe subscription.id = (true, pool.withListenersOf topic (earlier ++ later)) := by
  obtain ⟨earlier, later, split⟩ := List.append_of_mem listed
  have ascending := registered.ascending topic
  rw [split] at ascending
  have without : withoutSubscription subscription.id (listenersOf topic pool) = earlier ++ later := by
    rw [split]
    exact withoutSubscription_of_split ascending
  refine ⟨earlier, later, split, without, ?_⟩
  rw [← without]
  cases topic with
  | changes => rw [unsubscribe_eq, if_pos (hasSubscription_of_mem listed)]
  | lifecycle =>
      have notAmongChanges := hasSubscription_eq_false fun other member =>
        apart other member subscription listed
      rw [unsubscribe_eq, if_neg notAmongChanges, if_pos (hasSubscription_of_mem listed)]

theorem unsubscribe_of_unlisted {id : ListenerId}
    (unlisted : ¬ ∃ topic listener, ⟨id, listener⟩ ∈ listenersOf topic pool) :
    pool.unsubscribe id = (false, pool) := by
  have nobody (topic : Topic) : ¬ hasSubscription id (listenersOf topic pool) = true := by
    apply hasSubscription_eq_false
    rintro ⟨_, listener⟩ member rfl
    exact unlisted ⟨topic, listener, member⟩
  rw [unsubscribe_eq, if_neg (nobody .changes), if_neg (nobody .lifecycle)]

/-- As no identity is in both lists, it is as if both were searched. -/
theorem listenersOf_unsubscribe_eq (registered : pool.Registered) (apart : pool.TopicsApart)
    (id : ListenerId) (topic : Topic) :
    listenersOf topic (pool.unsubscribe id).2 = withoutSubscription id (listenersOf topic pool) := by
  by_cases listed : ∃ topic listener, ⟨id, listener⟩ ∈ listenersOf topic pool
  · obtain ⟨found, listener, member⟩ := listed
    obtain ⟨earlier, later, -, without, outcome⟩ := unsubscribe_of_listed registered apart member
    rw [outcome]
    by_cases same : found = topic
    · rw [listenersOf_withListenersOf, if_pos same, ← same, without]
    · rw [listenersOf_withListenersOf, if_neg same, withoutSubscription_of_none]
      intro other listens named
      exact same (apart.topic_eq member listens named.symm)
  · rw [unsubscribe_of_unlisted listed, withoutSubscription_of_none]
    rintro ⟨_, listener⟩ member rfl
    exact listed ⟨topic, listener, member⟩

variable [Store σ]

theorem step_subscribe (pool : Pool σ) (topic : Topic) (listener : Listener) :
    pool.step (.subscribe topic listener) =
      (.ok (.subscribed ⟨pool.nextListener⟩),
        { pool.withListenersOf topic
            (listenersOf topic pool ++ [⟨⟨pool.nextListener⟩, listener⟩]) with
          nextListener := pool.nextListener + 1 }) := by
  cases topic <;> rfl

theorem step_unsubscribe (pool : Pool σ) (id : ListenerId) :
    pool.step (.unsubscribe id) =
      (.ok (.flag (pool.unsubscribe id).1), (pool.unsubscribe id).2) :=
  rfl

/-- The listeners after a call are those that it did not take out, and the one that it brought
in. -/
theorem mem_listenersOf_step_iff (registered : pool.Registered) (apart : pool.TopicsApart)
    {command : Command} {topic : Topic} {subscription : Subscription} :
    subscription ∈ listenersOf topic (pool.step command).2 ↔
      (subscription ∈ listenersOf topic pool ∧ command ≠ .unsubscribe subscription.id) ∨
        (command = .subscribe topic subscription.listener ∧
          (pool.step command).1 = .ok (.subscribed subscription.id)) := by
  cases other : command.isSubscription with
  | false =>
      have notEnd : command ≠ .unsubscribe subscription.id := by
        rintro rfl
        cases other
      have notBegin : command ≠ .subscribe topic subscription.listener := by
        rintro rfl
        cases other
      rw [(step_sameSubscriptions pool other).listenersOf_eq]
      simp [notEnd, notBegin]
  | true =>
      cases command with
      | subscribe subscribed listener =>
          obtain ⟨id, heard⟩ := subscription
          rw [listenersOf_subscribe]
          by_cases same : subscribed = topic
          · simp [same, step_subscribe, eq_comm, and_comm]
          · simp [same]
      | unsubscribe id =>
          rw [step_unsubscribe, listenersOf_unsubscribe_eq registered apart, withoutSubscription,
            List.mem_filter]
          constructor
          · rintro ⟨listens, different⟩
            refine .inl ⟨listens, ?_⟩
            rintro ⟨⟩
            exact of_decide_eq_true different rfl
          · rintro (⟨listens, stays⟩ | ⟨⟨⟩, -⟩)
            refine ⟨listens, decide_eq_true ?_⟩
            rintro rfl
            exact stays rfl
      | _ => cases other

theorem TopicsApart.step (apart : pool.TopicsApart) (registered : pool.Registered)
    (command : Command) : (pool.step command).2.TopicsApart := by
  -- A listener that the call brought in has the next identity, and all others have smaller ones.
  have differs {topic other : Topic} {new old : Subscription}
      (begun : command = .subscribe topic new.listener)
      (answer : (pool.step command).1 = .ok (.subscribed new.id))
      (listens : old ∈ listenersOf other pool) : old.id ≠ new.id := by
    subst begun
    rw [step_subscribe] at answer
    have next : (⟨pool.nextListener⟩ : ListenerId) = new.id := by injections
    rw [← next]
    intro same
    exact Nat.ne_of_lt (registered.below other old listens) (congrArg ListenerId.value same)
  intro left ofChanges right ofLifecycle
  rcases (mem_listenersOf_step_iff registered apart).mp ofChanges with
    ⟨leftBefore, -⟩ | ⟨leftBegun, leftAnswer⟩
  · rcases (mem_listenersOf_step_iff registered apart).mp ofLifecycle with
      ⟨rightBefore, -⟩ | ⟨rightBegun, rightAnswer⟩
    · exact apart left leftBefore right rightBefore
    · exact differs rightBegun rightAnswer leftBefore
  · rcases (mem_listenersOf_step_iff registered apart).mp ofLifecycle with
      ⟨rightBefore, -⟩ | ⟨rightBegun, rightAnswer⟩
    · exact (differs leftBegun leftAnswer rightBefore).symm
    · rw [leftBegun] at rightBegun
      cases rightBegun

/-- An identity is given to whoever subscribes, and to nobody else. -/
theorem givenId?_call (pool : Pool σ) (command : Command) :
    (pool.call command).givenId? =
      if command.subscribes = true then some ⟨pool.nextListener⟩ else none := by
  cases command <;> rfl

theorem nextListener_step (pool : Pool σ) (command : Command) :
    (pool.step command).2.nextListener = pool.nextListener + command.subscribes.toNat := by
  cases other : command.isSubscription with
  | false =>
      have notBegin : command.subscribes = false := by
        cases command with
        | subscribe topic listener => cases other
        | _ => rfl
      rw [(step_sameSubscriptions pool other).nextListener_eq, notBegin]
      rfl
  | true =>
      cases command with
      | subscribe topic listener => exact nextListener_subscribe pool topic listener
      | unsubscribe id => exact nextListener_unsubscribe pool id
      | _ => cases other

theorem nextListener_run (pool : Pool σ) (commands : List Command) :
    (pool.run commands).2.nextListener =
      pool.nextListener + commands.countP Command.subscribes := by
  induction commands generalizing pool with
  | nil => rfl
  | cons command rest ih =>
      have later := ih (pool.step command).2
      rw [nextListener_step] at later
      refine later.trans ?_
      rw [List.countP_cons]
      cases command.subscribes
      · simp
      · simp
        omega

/-- A call makes the listeners more by the one that subscribes and fewer by the one that is taken
out. -/
theorem listenerCount_step (registered : pool.Registered) (apart : pool.TopicsApart)
    (command : Command) :
    (pool.step command).2.listenerCount + (pool.call command).endsOne.toNat =
      pool.listenerCount + command.subscribes.toNat := by
  cases other : command.isSubscription with
  | false =>
      have same := (step_sameSubscriptions pool other).listenersOf_eq
      have unchanged : (pool.step command).2.listenerCount = pool.listenerCount :=
        congrArg₂ (fun changes lifecycle => changes.length + lifecycle.length) (same .changes)
          (same .lifecycle)
      rw [unchanged]
      cases command with
      | subscribe topic listener => cases other
      | unsubscribe id => cases other
      | _ => rfl
  | true =>
      cases command with
      | subscribe topic listener =>
          have count := listenerCount_withListenersOf pool topic
            (listenersOf topic pool ++ [⟨⟨pool.nextListener⟩, listener⟩])
          rw [List.length_append, List.length_singleton] at count
          rw [step_subscribe]
          change (pool.withListenersOf topic _).listenerCount + 0 = pool.listenerCount + 1
          omega
      | unsubscribe id =>
          by_cases listed : ∃ topic listener, ⟨id, listener⟩ ∈ listenersOf topic pool
          · obtain ⟨topic, listener, member⟩ := listed
            obtain ⟨earlier, later, split, -, outcome⟩ :=
              unsubscribe_of_listed registered apart member
            have count := listenerCount_withListenersOf pool topic (earlier ++ later)
            rw [split, List.length_append, List.length_append, List.length_cons] at count
            simp only [call, step_unsubscribe, outcome]
            change (pool.withListenersOf topic _).listenerCount + 1 = pool.listenerCount + 0
            omega
          · simp only [call, step_unsubscribe, unsubscribe_of_unlisted listed]
            rfl
      | _ => cases other

/-! ## Histories -/

/-- The lists of a pool are those of the listeners that stand after the calls made to it. -/
structure ListsStanding (pool : Pool σ) (calls : List (Call σ)) : Prop where
  registered : pool.Registered
  apart : pool.TopicsApart
  mem_iff : ∀ topic subscription,
    subscription ∈ listenersOf topic pool ↔ Stands calls topic subscription
  given_eq : givenIds calls = (List.range pool.nextListener).map ListenerId.mk
  count_eq : pool.listenerCount + calls.countP Call.endsOne = pool.nextListener

omit [Store σ] in
theorem listsStanding_blank (id : PoolId) (layout : Layout) (store : σ) (config : Config) :
    ListsStanding (blank id layout store config) [] where
  registered := registered_blank id layout store config
  apart _ member := absurd member List.not_mem_nil
  mem_iff topic subscription := by
    apply iff_of_false _ (not_stands_nil topic subscription)
    cases topic <;> exact List.not_mem_nil
  given_eq := rfl
  count_eq := rfl

theorem ListsStanding.step {calls : List (Call σ)} (lists : ListsStanding pool calls)
    (command : Command) :
    ListsStanding (pool.step command).2 (calls ++ [pool.call command]) where
  registered := lists.registered.step command
  apart := lists.apart.step lists.registered command
  mem_iff topic subscription := by
    rw [mem_listenersOf_step_iff lists.registered lists.apart, stands_concat_iff, lists.mem_iff]
    rfl
  given_eq := by
    rw [givenIds, List.filterMap_append, ← givenIds, lists.given_eq, nextListener_step,
      List.filterMap_cons, givenId?_call]
    cases command.subscribes with
    | false => simp
    | true => simp [List.range_succ]
  count_eq := by
    have count := listenerCount_step lists.registered lists.apart command
    have countBefore := lists.count_eq
    rw [countP_concat, nextListener_step]
    omega

theorem ListsStanding.run {calls : List (Call σ)} (lists : ListsStanding pool calls)
    (commands : List Command) :
    ListsStanding (pool.run commands).2 (calls ++ pool.calls commands) :=
  run_keeps ListsStanding (fun _ _ command before _ => before.step command) lists
    fun _ _ => trivial

/-- How a pool keeps its listeners, given the calls made to it: in two lists, by identities of one
sequence. -/
structure SharesIds (pool : Pool σ) (calls : List (Call σ)) : Prop where
  /-- Identities are given in order, and none twice. -/
  given_eq : givenIds calls = (List.range (givenIds calls).length).map ListenerId.mk
  given_nodup : (givenIds calls).Nodup
  /-- All of them, and the next one, fit in their word. -/
  given_lt : ∀ id ∈ givenIds calls, id.value < pool.nextListener
  next_lt : pool.nextListener < ListenerId.limit
  /-- While there are identities left, whoever subscribes is given one that was not given before,
  and comes last in the list of the topic. -/
  subscribes : pool.nextListener + 1 < ListenerId.limit → ∀ topic listener,
    ∃ id, id ∉ givenIds calls ∧ pool.step (.subscribe topic listener) = (.ok (.subscribed id),
      { pool.withListenersOf topic (listenersOf topic pool ++ [⟨id, listener⟩]) with
        nextListener := id.value + 1 })
  mem_iff : ∀ topic subscription,
    subscription ∈ listenersOf topic pool ↔ Stands calls topic subscription
  /-- A subscription is found exactly if it was begun and not ended since. -/
  found_iff : ∀ id, (pool.step (.unsubscribe id)).1 = .ok (.flag true) ↔
    ∃ topic listener, Stands calls topic ⟨id, listener⟩
  /-- One that is found is taken out of its list; the others stay, in the same order. -/
  takes_out : ∀ topic subscription, Stands calls topic subscription →
    ∃ earlier later, listenersOf topic pool = earlier ++ subscription :: later ∧
      (pool.step (.unsubscribe subscription.id)).2 =
        pool.withListenersOf topic (earlier ++ later)
  /-- If none is found, nothing changes. -/
  otherwise : ∀ id, (pool.step (.unsubscribe id)).1 ≠ .ok (.flag true) →
    pool.step (.unsubscribe id) = (.ok (.flag false), pool)
  /-- As many listeners are counted as subscribed and were not taken out. -/
  ended_le : calls.countP Call.endsOne ≤ (givenIds calls).length
  count_eq : pool.stats.listeners = (givenIds calls).length - calls.countP Call.endsOne

theorem sharesIds {calls : List (Call σ)} (lists : ListsStanding pool calls)
    (fits : pool.nextListener < ListenerId.limit) : SharesIds pool calls where
  given_eq := by
    have length := congrArg List.length lists.given_eq
    rw [List.length_map, List.length_range] at length
    rw [length]
    exact lists.given_eq
  given_nodup := by
    rw [lists.given_eq]
    refine List.Nodup.map ?_ List.nodup_range
    rintro _ _ ⟨⟩
    rfl
  given_lt id given := by
    rw [lists.given_eq] at given
    obtain ⟨value, below, rfl⟩ := List.mem_map.mp given
    exact List.mem_range.mp below
  next_lt := fits
  subscribes _ topic listener := by
    refine ⟨⟨pool.nextListener⟩, ?_, step_subscribe pool topic listener⟩
    rw [lists.given_eq]
    simp
  mem_iff := lists.mem_iff
  found_iff id := by
    simp only [step_unsubscribe, ← lists.mem_iff]
    by_cases listed : ∃ topic listener, ⟨id, listener⟩ ∈ listenersOf topic pool
    · obtain ⟨topic, listener, member⟩ := listed
      obtain ⟨_, _, -, -, outcome⟩ := unsubscribe_of_listed lists.registered lists.apart member
      rw [outcome]
      exact iff_of_true rfl ⟨topic, listener, member⟩
    · rw [unsubscribe_of_unlisted listed]
      exact iff_of_false (by rintro ⟨⟩) listed
  takes_out topic subscription stands := by
    have listed := (lists.mem_iff topic subscription).mpr stands
    obtain ⟨earlier, later, split, -, outcome⟩ :=
      unsubscribe_of_listed lists.registered lists.apart listed
    refine ⟨earlier, later, split, ?_⟩
    rw [step_unsubscribe, outcome]
  otherwise id notFound := by
    by_cases listed : ∃ topic listener, ⟨id, listener⟩ ∈ listenersOf topic pool
    · obtain ⟨topic, listener, member⟩ := listed
      obtain ⟨_, _, -, -, outcome⟩ := unsubscribe_of_listed lists.registered lists.apart member
      rw [step_unsubscribe, outcome] at notFound
      exact absurd rfl notFound
    · rw [step_unsubscribe, unsubscribe_of_unlisted listed]
  ended_le := by
    have count := lists.count_eq
    rw [lists.given_eq, List.length_map, List.length_range]
    omega
  count_eq := by
    have count := lists.count_eq
    change pool.listenerCount = _
    rw [lists.given_eq, List.length_map, List.length_range]
    omega

/-- Whoever subscribes and unsubscribes and whatever else is done, the two lists of listeners of a
pool share one sequence of identities. -/
theorem all_share_ids (commands : List Command)
    (few : commands.countP Command.subscribes < ListenerId.limit) :
    OfEveryKind fun _ _ _ opened => SharesIds (opened.run commands).2 (opened.calls commands) := by
  apply ofEveryKind
  intro σ _ _ id layout store config _ _
  have next := nextListener_run (blank id layout store config) commands
  apply sharesIds ((listsStanding_blank id layout store config).run commands)
  rw [next]
  exact (Nat.zero_add _).trans_lt few

/-- Subscriptions to both topics, some of them ended, once or twice or before they were begun. -/
def subscribedRun : List Command :=
  [.unsubscribe ⟨1⟩, .subscribe .changes .attentive, .subscribe .lifecycle .attentive,
    .subscribe .changes .attentive, .unsubscribe ⟨1⟩, .create (.unbound ⟨0⟩), .unsubscribe ⟨1⟩,
    .subscribe .lifecycle .attentive, .unsubscribe ⟨0⟩]

/-- Of the run above two listeners are left, one of each topic. -/
theorem default_shares_ids :
    ∃ layout pool, Fixture.int.layout = .ok layout ∧ ofConfig ⟨0⟩ layout {} = .ok pool ∧
      (pool.run subscribedRun).1 =
        [.ok (.flag false), .ok (.subscribed ⟨0⟩), .ok (.subscribed ⟨1⟩), .ok (.subscribed ⟨2⟩),
          .ok (.flag true), .ok (.proxy ⟨⟨0⟩, 0⟩), .ok (.flag false), .ok (.subscribed ⟨3⟩),
          .ok (.flag true)] ∧
      (pool.run subscribedRun).2.changeListeners = [⟨⟨2⟩, .attentive⟩] ∧
      (pool.run subscribedRun).2.lifecycleListeners = [⟨⟨3⟩, .attentive⟩] ∧
      subscribedRun.countP Command.subscribes < ListenerId.limit ∧
      SharesIds (pool.run subscribedRun).2 (pool.calls subscribedRun) := by
  have opened : ∃ layout pool, Fixture.int.layout = .ok layout ∧
      ofConfig ⟨0⟩ layout {} = .ok pool ∧
      (pool.run subscribedRun).1 =
        [.ok (.flag false), .ok (.subscribed ⟨0⟩), .ok (.subscribed ⟨1⟩), .ok (.subscribed ⟨2⟩),
          .ok (.flag true), .ok (.proxy ⟨⟨0⟩, 0⟩), .ok (.flag false), .ok (.subscribed ⟨3⟩),
          .ok (.flag true)] ∧
      (pool.run subscribedRun).2.changeListeners = [⟨⟨2⟩, .attentive⟩] ∧
      (pool.run subscribedRun).2.lifecycleListeners = [⟨⟨3⟩, .attentive⟩] :=
    ⟨_, _, rfl, rfl, rfl, rfl, rfl⟩
  have few : subscribedRun.countP Command.subscribes < ListenerId.limit := by decide
  rcases opened with ⟨layout, pool, built, opened, answers, changes, lifecycle⟩
  exact ⟨layout, pool, built, opened, answers, changes, lifecycle, few,
    (all_share_ids subscribedRun few).1 _ _ _ _ _ opened⟩

end Pool

end RecordPool
