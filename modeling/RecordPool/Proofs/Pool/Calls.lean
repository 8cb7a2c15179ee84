import RecordPool.Proofs.Pool.Frame

/-!
# The calls of a run

A run asks a pool one thing after another.  A call is one of these commands together with
the pool that it found, what was answered, and the pool that it left; the calls of a run
are its history.  What calls keep follows from what the uses of the slab keep and from what
telling the listeners keeps.
-/

namespace RecordPool.Pool

variable {σ : Type}

/-- Whether the call was a misuse, or had one happen in it. -/
def Answer.isFault : Answer → Bool
  | .error (.fault _) => true
  | _ => false

/-- Whether the call was turned down: with an error of the pool, with the proxy handed
back, or with nothing found. -/
def Answer.isRefusal : Answer → Bool
  | .error (.refused _) => true
  | .ok (.rejected _) => true
  | .ok (.found none) => true
  | _ => false

/-- The proxy that is passed with a command, if one is. -/
def Command.proxy? : Command → Option Proxy
  | .create proxy => some proxy
  | .delete proxy => some proxy
  | .lookUp _ proxy => some proxy
  | .lookUpIfLive _ proxy => some proxy
  | .write _ proxy => some proxy
  | .release proxy => some proxy
  | _ => none

/-! ## Histories -/

/-- A command with the pool that it found, its answer, and the pool that it left. -/
structure Call (σ : Type) where
  before : Pool σ
  command : Command
  answer : Answer
  after : Pool σ

variable [Store σ]

/-- The proxy that is passed with a command, as the caller has it after the call, be it pointed at
a record, left alone or handed back. -/
def proxyAfter (pool : Pool σ) : Command → Option Proxy
  | .create proxy => some (stateLeft (createAimed ⟨pool, proxy⟩)).proxy
  | .delete proxy => some proxy
  | .lookUp id proxy => some (stateLeft (pool.aim id proxy))
  | .lookUpIfLive id proxy => some (pool.aimIfLive id proxy).2
  | .write _ proxy => some proxy
  | .release proxy =>
      match pool.release proxy with
      | .ok _ => none
      | .error rejected => some rejected.proxy
  | _ => none

/-- The call that a command is to a pool. -/
def call (pool : Pool σ) (command : Command) : Call σ :=
  ⟨pool, command, (pool.step command).1, (pool.step command).2⟩

theorem call_eq {pool after : Pool σ} {command : Command} {answer : Answer}
    (stepped : pool.step command = (answer, after)) :
    pool.call command = ⟨pool, command, answer, after⟩ := by
  rw [call, stepped]

/-- The calls of a run, in order. -/
def calls (pool : Pool σ) : List Command → List (Call σ)
  | [] => []
  | command :: rest => pool.call command :: (pool.step command).2.calls rest

theorem calls_append (pool : Pool σ) (earlier later : List Command) :
    pool.calls (earlier ++ later) = pool.calls earlier ++ (pool.run earlier).2.calls later := by
  induction earlier generalizing pool with
  | nil => rfl
  | cons command rest ih => exact congrArg (pool.call command :: ·) (ih (pool.step command).2)

theorem run_append (pool : Pool σ) (earlier later : List Command) :
    (pool.run (earlier ++ later)).2 = ((pool.run earlier).2.run later).2 := by
  induction earlier generalizing pool with
  | nil => rfl
  | cons command rest ih => exact ih (pool.step command).2

/-- Every call of a run is a call to a pool that the run led to. -/
theorem exists_of_mem_calls {pool : Pool σ} {commands : List Command} {call : Call σ}
    (made : call ∈ pool.calls commands) :
    ∃ earlier command, command ∈ commands ∧ call = (pool.run earlier).2.call command := by
  induction commands generalizing pool with
  | nil => cases made
  | cons command rest ih =>
      rcases List.mem_cons.mp made with rfl | later
      · exact ⟨[], command, List.mem_cons_self, rfl⟩
      · rcases ih later with ⟨earlier, other, member, made⟩
        exact ⟨command :: earlier, other, List.mem_cons_of_mem command member, made⟩

/-- What every call keeps of those that are permitted, a run of such calls keeps.  The calls of
the run join those that were made before. -/
theorem run_keeps (holds : Pool σ → List (Call σ) → Prop) {permitted : Call σ → Prop}
    (step : ∀ pool calls command, holds pool calls → permitted (pool.call command) →
      holds (pool.step command).2 (calls ++ [pool.call command]))
    {pool : Pool σ} {calls : List (Call σ)} (start : holds pool calls) {commands : List Command}
    (made : ∀ call ∈ pool.calls commands, permitted call) :
    holds (pool.run commands).2 (calls ++ pool.calls commands) := by
  induction commands generalizing pool calls with
  | nil =>
      rw [Pool.calls, List.append_nil]
      exact start
  | cons command rest ih =>
      obtain ⟨now, later⟩ := List.forall_mem_cons.mp made
      have further := ih (step pool calls command start now) later
      rw [List.append_assoc] at further
      exact further

omit [Store σ] in
theorem countP_concat (counted : Call σ → Bool) (calls : List (Call σ)) (call : Call σ) :
    (calls ++ [call]).countP counted = calls.countP counted + (counted call).toNat := by
  rw [List.countP_append, List.countP_singleton]
  cases counted call <;> rfl

/-! ## What calls keep -/

omit [Store σ] in
/-- The listeners of a topic, in the order of subscription. -/
def listenersOf : Topic → Pool σ → List Subscription
  | .changes => changeListeners
  | .lifecycle => lifecycleListeners

/-- The topic whose listeners a command tells of what it does, if it tells anyone. -/
def Command.topic? : Command → Option Topic
  | .create _ | .delete _ | .deleteId _ => some .lifecycle
  | .write _ _ | .edit _ _ _ | .notify _ => some .changes
  | _ => none

/-- The commands that only have to do with records and with who is told of them. -/
def Command.isConfined : Command → Bool
  | .setInitializer _ | .setValidation _ | .subscribe _ _ | .unsubscribe _ | .mint | .acquire
  | .release _ => false
  | _ => true

theorem Command.isConfined_of_topic {command : Command} {topic : Topic}
    (named : command.topic? = some topic) : command.isConfined = true := by
  cases command <;> first | rfl | cases named

/-- A relation between pools that outlasts changes of the slab, and telling the listeners of
a topic if one is given. -/
structure Lasting (relation : Pool σ → Pool σ → Prop) (topic? : Option Topic) : Prop where
  refl : ∀ pool, relation pool pool
  trans : ∀ first second third,
    relation first second → relation second third → relation first third
  withSlab : ∀ pool slab, relation pool (pool.withSlab slab)
  announce : ∀ topic, topic? = some topic → ∀ phase index,
    Preserves relation (announce (listenersOf topic) phase index)

section Lasting

variable {relation : Pool σ → Pool σ → Prop} {topic? : Option Topic} {α : Type}

theorem editQuietly_keeps (lasting : Lasting relation topic?) (index : Nat) (edit : Edit α) :
    Preserves relation (editQuietly index edit : EStateM Fault (Pool σ) α) := by
  intro pool
  simp only [editQuietly, onStore_apply]
  cases Elements.edit index edit pool.slab.store <;> exact lasting.withSlab pool _

theorem editNotifying_keeps (lasting : Lasting relation (some .changes)) (index : Nat)
    (edit : Edit α) :
    Preserves relation (editNotifying index edit : EStateM Fault (Pool σ) α) := by
  apply Preserves.bind lasting.trans (lasting.announce .changes rfl _ _)
  intro _
  apply Preserves.bind lasting.trans (editQuietly_keeps lasting index edit)
  intro value
  apply Preserves.bind lasting.trans (lasting.announce .changes rfl _ _)
  intro _
  exact Preserves.pure lasting.refl value

theorem edit_keeps (lasting : Lasting relation (some .changes)) (notice : Notice) (index : Nat)
    (edit : Edit α) :
    Preserves relation (Pool.edit notice index edit : EStateM Fault (Pool σ) α) := by
  cases notice with
  | quiet => exact editQuietly_keeps lasting index edit
  | told => exact editNotifying_keeps lasting index edit

theorem writeField_keeps (lasting : Lasting relation (some .changes)) (proxy : Proxy)
    (write : FieldWrite) :
    Preserves relation (writeField proxy write : EStateM Fault (Pool σ) Unit) := by
  intro pool
  by_cases own : proxy.owner = pool.id
  · rw [writeField_of_own own]
    cases write.plan (pool.record proxy.index) with
    | ok edit => exact edit_keeps lasting write.notice proxy.index edit pool
    | error fault => exact lasting.refl pool
  · rw [writeField_of_foreign own]
    exact lasting.refl pool

theorem onSlab_keeps (lasting : Lasting relation topic?) {ε : Type}
    (action : EStateM ε (Slab σ) α) : Preserves relation (onSlab action) := by
  intro pool
  rw [onSlab_apply]
  cases action pool.slab <;> exact lasting.withSlab pool _

theorem prepare_keeps (lasting : Lasting relation topic?) (index : Nat) :
    Preserves relation (prepare index : EStateM Fault (Pool σ) Unit) := by
  intro pool
  simp only [prepare, bind_apply, get_apply]
  cases pool.initializer with
  | none => exact lasting.refl pool
  | some initializer => exact editQuietly_keeps lasting index (initializer index) pool

theorem create_keeps (lasting : Lasting relation (some .lifecycle)) (proxy : Proxy) :
    Preserves relation (create proxy : EStateM (Failure Error) (Pool σ) Proxy) := by
  intro pool
  by_cases own : proxy.owner = pool.id
  · rw [create_of_own own]
    cases Slab.allocate pool.slab with
    | error failure slab => exact lasting.withSlab pool slab
    | ok index slab =>
        have finished :
            Preserves relation (finishCreation proxy index : EStateM _ (Pool σ) Proxy) := by
          apply Preserves.bind lasting.trans (prepare_keeps lasting index).adaptExcept
          intro _
          apply Preserves.bind lasting.trans (lasting.announce .lifecycle rfl _ _).adaptExcept
          intro _
          exact Preserves.pure lasting.refl _
        exact lasting.trans _ _ _ (lasting.withSlab pool slab) (finished (pool.withSlab slab))
  · rw [create_of_foreign own]
    exact lasting.refl pool

theorem deleteId_keeps (lasting : Lasting relation (some .lifecycle)) (id : Nat) :
    Preserves relation (deleteId id : EStateM (Failure Error) (Pool σ) Unit) := by
  intro pool
  by_cases isLive : pool.isLive id = true
  · have told := lasting.announce .lifecycle rfl .beforeDelete id pool
    rw [deleteId_takesBack isLive]
    cases announced : announce lifecycleListeners .beforeDelete id pool with
    | error fault left =>
        rw [listenersOf, announced] at told
        exact told
    | ok _ left =>
        rw [listenersOf, announced] at told
        exact lasting.trans _ _ _ told (lasting.withSlab left _)
  · rw [deleteId_of_not_live (Bool.eq_false_iff.mpr isLive)]
    exact lasting.refl pool

theorem delete_keeps (lasting : Lasting relation (some .lifecycle)) (proxy : Proxy) :
    Preserves relation (delete proxy : EStateM (Failure Error) (Pool σ) Unit) := by
  intro pool
  by_cases own : proxy.owner = pool.id
  · rw [delete_of_own own]
    exact deleteId_keeps lasting proxy.index pool
  · rw [delete_of_foreign own]
    exact lasting.refl pool

/-- What outlasts changes of the slab and telling the listeners outlasts the commands that
do nothing else. -/
theorem step_keeps {command : Command} (lasting : Lasting relation command.topic?)
    (confined : command.isConfined = true) (pool : Pool σ) :
    relation pool (pool.step command).2 := by
  rw [step_eq]
  cases command with
  | create proxy =>
      simp only [perform, stateLeft_map]
      exact create_keeps lasting proxy pool
  | delete proxy =>
      simp only [perform, stateLeft_bind_pure]
      exact delete_keeps lasting proxy pool
  | deleteId id =>
      simp only [perform, stateLeft_bind_pure]
      exact deleteId_keeps lasting id pool
  | swap left right =>
      simp only [perform, stateLeft_bind_pure]
      exact (onSlab_keeps lasting (Slab.swap left right)).adaptExcept pool
  | reserve count =>
      simp only [perform, stateLeft_bind_pure]
      exact (onSlab_keeps lasting (Slab.reserve count)).adaptExcept pool
  | write write proxy =>
      simp only [perform, faultable, stateLeft_bind_pure, stateLeft_adaptExcept]
      exact writeField_keeps lasting proxy write pool
  | edit notice index edit =>
      simp only [perform, faultable, stateLeft_bind_pure, stateLeft_adaptExcept]
      exact edit_keeps lasting notice index edit pool
  | notify index =>
      simp only [perform, faultable, stateLeft_bind_pure, stateLeft_adaptExcept]
      apply Preserves.bind lasting.trans (lasting.announce .changes rfl .beforeChange index)
      intro _
      exact lasting.announce .changes rfl .afterChange index
  | lookUp id proxy =>
      simp only [perform, bind_apply, get_apply]
      cases pool.lookUp id proxy <;> exact lasting.refl pool
  | lookUpIfLive id proxy => exact lasting.refl pool
  | clear => exact lasting.withSlab pool pool.slab.clear
  | setInitializer initializer => cases confined
  | setValidation validation => cases confined
  | subscribe topic listener => cases confined
  | unsubscribe id => cases confined
  | mint => cases confined
  | acquire => cases confined
  | release proxy => cases confined

end Lasting

/-- Telling listeners changes the journal alone. -/
theorem stateLeft_announce (listeners : Pool σ → List Subscription) (phase : Phase)
    (index : Nat) (pool : Pool σ) :
    stateLeft (announce listeners phase index pool) =
      pool.withJournal (stateLeft (announce listeners phase index pool)).journal := by
  simp only [announce, bind_apply, get_apply, ite_action_apply]
  by_cases nobody : (listeners pool).isEmpty
  · rw [if_pos nobody]
    rfl
  · rw [if_neg nobody]
    cases pool.record index with
    | error fault => rfl
    | ok record =>
        simp only [ofExcept_ok_apply, onJournal_apply]
        cases Journal.tell phase record (listeners pool) pool.journal <;> rfl

/-- Two states of one pool between which nobody subscribed and no subscription ended. -/
structure SameSubscriptions (before after : Pool σ) : Prop where
  id_eq : after.id = before.id
  listenersOf_eq : ∀ topic, listenersOf topic after = listenersOf topic before
  nextListener_eq : after.nextListener = before.nextListener

theorem lasting_sameSubscriptions (topic? : Option Topic) :
    Lasting (SameSubscriptions : Pool σ → Pool σ → Prop) topic? where
  refl pool := ⟨rfl, fun _ => rfl, rfl⟩
  trans first second third earlier later := {
    id_eq := later.id_eq.trans earlier.id_eq
    listenersOf_eq := fun topic => (later.listenersOf_eq topic).trans (earlier.listenersOf_eq topic)
    nextListener_eq := later.nextListener_eq.trans earlier.nextListener_eq }
  withSlab pool slab := ⟨rfl, fun topic => by cases topic <;> rfl, rfl⟩
  announce topic _ phase index pool := by
    rw [stateLeft_announce]
    exact ⟨rfl, fun other => by cases other <;> rfl, rfl⟩

/-- The commands by which subscriptions begin and end. -/
def Command.isSubscription : Command → Bool
  | .subscribe _ _ | .unsubscribe _ => true
  | _ => false

theorem step_sameSubscriptions (pool : Pool σ) {command : Command}
    (other : command.isSubscription = false) :
    SameSubscriptions pool (pool.step command).2 := by
  have same {after : Pool σ} (id : after.id = pool.id)
      (change : after.changeListeners = pool.changeListeners)
      (lifecycle : after.lifecycleListeners = pool.lifecycleListeners)
      (next : after.nextListener = pool.nextListener) : SameSubscriptions pool after := by
    constructor
    · exact id
    · intro topic
      cases topic with
      | changes => exact change
      | lifecycle => exact lifecycle
    · exact next
  cases confined : command.isConfined with
  | true => exact step_keeps (lasting_sameSubscriptions command.topic?) confined pool
  | false =>
      cases command with
      | subscribe topic listener => cases other
      | unsubscribe id => cases other
      | setInitializer initializer => exact same rfl rfl rfl rfl
      | setValidation validation => exact same rfl rfl rfl rfl
      | mint => exact same rfl rfl rfl rfl
      | acquire =>
          simp only [step_eq, perform, change, stateLeft_ok, acquire]
          cases pool.spares <;> exact same rfl rfl rfl rfl
      | release proxy =>
          by_cases own : proxy.owner = pool.id
          · simp only [step_eq, perform, change, release_of_own own, stateLeft_ok]
            split <;> exact same rfl rfl rfl rfl
          · simp only [step_eq, perform, change, release_of_foreign own, stateLeft_ok]
            exact same rfl rfl rfl rfl
      | _ => cases confined

/-- A pool keeps its identity. -/
theorem step_id (pool : Pool σ) (command : Command) : (pool.step command).2.id = pool.id := by
  cases other : command.isSubscription with
  | false => exact (step_sameSubscriptions pool other).id_eq
  | true =>
      cases command with
      | subscribe topic listener => cases topic <;> rfl
      | unsubscribe id =>
          simp only [step_eq, perform, change, stateLeft_ok, unsubscribe]
          split
          · rfl
          · split <;> rfl
      | _ => cases other

theorem run_id (pool : Pool σ) (commands : List Command) : (pool.run commands).2.id = pool.id := by
  induction commands generalizing pool with
  | nil => rfl
  | cons command rest ih => exact (ih (pool.step command).2).trans (step_id pool command)

/-- The commands that are not about records tell nobody, and only one of them replaces the
initializer. -/
theorem step_of_not_confined (pool : Pool σ) {command : Command}
    (settings : command.isConfined = false) :
    (pool.step command).2.journal = pool.journal ∧
      ((∀ initializer, command ≠ .setInitializer initializer) →
        (pool.step command).2.initializer = pool.initializer) := by
  cases command with
  | setInitializer initializer => exact ⟨rfl, fun other => absurd rfl (other initializer)⟩
  | setValidation validation => exact ⟨rfl, fun _ => rfl⟩
  | subscribe topic listener => cases topic <;> exact ⟨rfl, fun _ => rfl⟩
  | unsubscribe id =>
      simp only [step_eq, perform, change, stateLeft_ok, unsubscribe]
      split
      · exact ⟨rfl, fun _ => rfl⟩
      · split <;> exact ⟨rfl, fun _ => rfl⟩
  | mint => exact ⟨rfl, fun _ => rfl⟩
  | acquire =>
      simp only [step_eq, perform, change, stateLeft_ok, acquire]
      cases pool.spares <;> exact ⟨rfl, fun _ => rfl⟩
  | release proxy =>
      by_cases own : proxy.owner = pool.id
      · simp only [step_eq, perform, change, release_of_own own, stateLeft_ok]
        split <;> exact ⟨rfl, fun _ => rfl⟩
      · simp only [step_eq, perform, change, release_of_foreign own, stateLeft_ok, implies_true,
          and_self]
  | _ => cases settings

end RecordPool.Pool
