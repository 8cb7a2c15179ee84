import RecordPool.Proofs.Pool.Listening
import RecordPool.Proofs.Pool.Subscriptions

/-!
# Events in the life of records

A call makes at most one record come or go, and that is the one event that it tells, unless
all records go at once.  The record created is shown with what the initializer left of the
contents that its slot last held, and the record deleted as it is.  This is so as long as the
initializer and the lifecycle listeners return; a call in which they do not may leave a record
behind that nobody was told of.
-/

namespace RecordPool.Pool

open LawfulStore

variable {σ : Type}

/-- A call in which the initializer and the lifecycle listeners return: a creation that ends in
a fault does so before a record is allotted, and no deletion ends in a fault. -/
def Call.Returns (call : Call σ) : Prop :=
  match call.command with
  | .create _ => call.answer.isFault = true → call.after.liveCount = call.before.liveCount
  | .delete _ => call.answer.isFault = false
  | .deleteId _ => call.answer.isFault = false
  | _ => True

/-- An initializer that returns, whatever record it is given. -/
def InitializerReturns (initializer : Nat → Edit Unit) : Prop :=
  ∀ index contents, ∃ left, (initializer index).run contents = .ok () left

/-- A listener that returns, whatever record it is shown. -/
def ListenerReturns (listener : Listener) : Prop :=
  ∀ record, listener.look record = .ok ()

/-- A pool whose initializer and lifecycle listeners return. -/
structure Returning (pool : Pool σ) : Prop where
  initializer : ∀ initializer, pool.initializer = some initializer →
    InitializerReturns initializer
  listeners : ∀ subscription ∈ pool.lifecycleListeners, ListenerReturns subscription.listener

/-- A command that brings in no initializer and no lifecycle listener but those that return. -/
def Command.Returning : Command → Prop
  | .setInitializer (some initializer) => InitializerReturns initializer
  | .subscribe .lifecycle listener => ListenerReturns listener
  | _ => True

variable [Store σ]

/-- The contents that a record is created with: what the initializer leaves of those that its
slot last held. -/
def prepared (pool : Pool σ) (index : Nat) : Buffer :=
  match pool.initializer with
  | some initializer => contentsLeft ((initializer index).run (pool.shown index).contents)
  | none => (pool.shown index).contents

/-- What becomes of the live records in a call that does not forget them all, and the event
that it tells. -/
inductive LifeStep (call : Call σ) (live : Finset Nat) : Finset Nat → Prop where
  | created (index : Nat) (notLive : index ∉ live)
      (shows : call.events = [(.created, call.after.shown index)])
      (contents : (call.after.shown index).contents = call.before.prepared index) :
      LifeStep call live (insert index live)
  | deleted (index : Nat) (isLive : index ∈ live)
      (shows : call.events = [(.beforeDelete, call.before.shown index)]) :
      LifeStep call live (live.erase index)
  | silent (shows : call.events = []) : LifeStep call live live

variable [LawfulStore σ] {pool after left : Pool σ} {live : Finset Nat}

/-- A record is prepared by the initializer, which acts on what its slot last held. -/
theorem prepare_ok (sound : Sound pool.slab.store) {index : Nat}
    (done : prepare index pool = .ok () after) :
    (after.shown index).contents = pool.prepared index := by
  simp only [prepare, bind_apply, get_apply] at done
  unfold prepared
  cases chosen : pool.initializer with
  | none =>
      rw [chosen] at done
      cases done
      rfl
  | some initializer =>
      simp only [chosen, editQuietly, onStore_apply] at done
      by_cases inside : index < Elements.size pool.slab.store
      · rcases edit_inside sound inside (initializer index) with ⟨store, edited, becomes⟩
        rw [edited] at done
        have contents := becomes.contents_eq index
        rw [Function.update_self] at contents
        cases outcome : (initializer index).run (Elements.contents pool.slab.store index) with
        | error fault kept =>
            rw [outcome] at done
            cases done
        | ok _ kept =>
            rw [outcome] at done
            cases done
            exact contents
      · rw [edit_outside sound (Nat.le_of_not_lt inside)] at done
        cases done

/-- A creation that succeeds makes a record live that was not, and shows it as it was
prepared. -/
theorem create_spec (orderly : pool.slab.Orderly live) {proxy pointed : Proxy}
    (created : create proxy pool = .ok pointed after) :
    pointed.index ∉ live ∧ after.slab.Orderly (insert pointed.index live) ∧
      (after.shown pointed.index).contents = pool.prepared pointed.index := by
  rcases create_ok created with ⟨-, -, slab, middle, allotted, readied, announced⟩
  have handedOut := orderly.allocate
  rw [allotted] at handedOut
  rcases handedOut with ⟨notLive, -, orderlyAllotted⟩
  have orderlyReadied := orderlyAllotted.storeOnly
    ((prepare_elementsOnly pointed.index).of_ok readied orderlyAllotted.sound).storeOnly
  have sameSlab : after.slab = middle.slab := by
    rw [(announce_ok announced).1]
    rfl
  have sameContents : (pool.withSlab slab).shown pointed.index = pool.shown pointed.index :=
    congrArg (Record.mk pointed.index)
      (congrFun (Slab.contents_allocate orderly.sound allotted) pointed.index)
  have contents := prepare_ok orderlyAllotted.sound readied
  constructor
  · exact notLive
  · constructor
    · rw [sameSlab]
      exact orderlyReadied
    · rw [shown, sameSlab]
      rw [prepared, sameContents] at contents
      exact contents

/-- A creation that fails without one more record being live has changed the store alone. -/
theorem create_fails (orderly : pool.slab.Orderly live) {proxy : Proxy}
    {failure : Failure Error} (failed : create proxy pool = .error failure left)
    (noneLeft : ∀ fault, failure = .fault fault → left.liveCount = pool.liveCount) :
    left = pool.withSlab left.slab ∧ Slab.StoreOnly pool.slab left.slab := by
  by_cases own : proxy.owner = pool.id
  · have handedOut := orderly.allocate
    rw [create_of_own own] at failed
    cases allotted : Slab.allocate pool.slab with
    | error refusal slab =>
        rw [allotted] at failed handedOut
        cases failed
        exact ⟨rfl, handedOut⟩
    | ok index slab =>
        rw [allotted] at failed handedOut
        rcases handedOut with ⟨notLive, -, orderlyAllotted⟩
        have finished := (finishCreation_elementsOnly proxy index (pool.withSlab slab)
          orderlyAllotted.sound).storeOnly
        simp only at failed
        rw [failed] at finished
        rcases finishCreation_error failed with ⟨fault, isFault⟩
        -- What was allotted stays live, so that one more record would be.
        have liveCountLeft : left.liveCount = live.card + 1 := by
          rw [← Finset.card_insert_of_notMem notLive]
          exact liveCount_eq (orderlyAllotted.storeOnly finished)
        rw [noneLeft fault isFault, liveCount_eq orderly] at liveCountLeft
        exact absurd liveCountLeft (Nat.succ_ne_self _).symm
  · rw [create_of_foreign own] at failed
    cases failed
    exact ⟨rfl, Slab.StoreOnly.refl orderly.sound⟩

theorem create_step (orderly : pool.slab.Orderly live) {proxy : Proxy}
    (returns : (pool.call (.create proxy)).Returns) :
    (∃ live', (pool.step (.create proxy)).2.slab.Orderly live' ∧
        LifeStep (pool.call (.create proxy)) live live') ∧
      (pool.call (.create proxy)).TellsAll := by
  cases created : create proxy pool with
  | ok pointed after =>
      rcases create_spec orderly created with ⟨notLive, orderlyAfter, contents⟩
      have stepped := step_create_of_ok created
      constructor
      · rw [call_eq stepped, stepped]
        exact ⟨_, orderlyAfter, .created pointed.index notLive rfl contents⟩
      · apply create_tells
        rw [stepped]
        rfl
  | error failure left =>
      have stepped := step_create_of_error created
      have noneLeft : ∀ fault, failure = .fault fault → left.liveCount = pool.liveCount := by
        rintro fault rfl
        rw [call_eq stepped] at returns
        exact returns rfl
      rcases create_fails orderly created noneLeft with ⟨leftEq, storeOnly⟩
      rw [call_eq stepped, stepped]
      constructor
      · exact ⟨live, orderly.storeOnly storeOnly, .silent rfl⟩
      · apply tellsAll_of_silent _ rfl rfl
        rw [leftEq]
        rfl

theorem deleteId_step (orderly : pool.slab.Orderly live) (id : Nat) :
    ∃ live', (pool.step (.deleteId id)).2.slab.Orderly live' ∧
      LifeStep (pool.call (.deleteId id)) live live' := by
  cases deleted : deleteId id pool with
  | ok _ after =>
      rcases deleteId_ok deleted with ⟨isLive, told, -, rfl⟩
      have member := (isLive_iff orderly).mp isLive
      have stepped := step_deleteId_of_ok deleted
      rw [call_eq stepped, stepped]
      exact ⟨_, orderly.takeBack member, .deleted id member rfl⟩
  | error failure left =>
      have stepped := step_deleteId_of_error deleted
      have sameSlab : left.slab = pool.slab := by
        rcases deleteId_deletes id pool with ⟨_, _, done, -, -⟩ | ⟨_, _, failed, same⟩
        · rw [deleted] at done
          cases done
        · rw [deleted] at failed
          cases failed
          exact same
      rw [call_eq stepped, stepped, sameSlab]
      exact ⟨live, orderly, .silent rfl⟩

theorem delete_step (orderly : pool.slab.Orderly live) (proxy : Proxy) :
    ∃ live', (pool.step (.delete proxy)).2.slab.Orderly live' ∧
      LifeStep (pool.call (.delete proxy)) live live' := by
  by_cases own : proxy.owner = pool.id
  · have sameEvents := events_delete own
    have sameAfter : (pool.call (.delete proxy)).after =
        (pool.call (.deleteId proxy.index)).after :=
      congrArg Prod.snd (step_delete_of_own own)
    rcases deleteId_step orderly proxy.index with ⟨live', orderlyAfter, lifeStep⟩
    rw [step_delete_of_own own]
    refine ⟨live', orderlyAfter, ?_⟩
    cases lifeStep with
    | created index notLive shows contents =>
        rw [← sameAfter] at shows contents
        rw [← sameEvents] at shows
        exact .created index notLive shows contents
    | deleted index isLive shows =>
        rw [← sameEvents] at shows
        exact .deleted index isLive shows
    | silent shows =>
        rw [← sameEvents] at shows
        exact .silent shows
  · rw [call_eq (step_delete_of_foreign own), step_delete_of_foreign own]
    exact ⟨live, orderly, .silent rfl⟩

/-- A call that does not forget all records makes at most one come or go, and this is the event
that it tells. -/
theorem step_life (orderly : pool.slab.Orderly live) {command : Command}
    (remembers : command ≠ .clear) (returns : (pool.call command).Returns) :
    ∃ live', (pool.step command).2.slab.Orderly live' ∧
      LifeStep (pool.call command) live live' := by
  cases command with
  | create proxy => exact (create_step orderly returns).1
  | delete proxy => exact delete_step orderly proxy
  | deleteId id => exact deleteId_step orderly id
  | clear => exact absurd rfl remembers
  | _ => exact ⟨live, orderly.storeOnly (step_storeOnly orderly rfl), .silent rfl⟩

/-- A call in the life of records in which all return tells all that it is to tell. -/
theorem tellsAll_of_returns (orderly : pool.slab.Orderly live) {command : Command}
    (returns : (pool.call command).Returns) (named : command.topic? = some .lifecycle) :
    (pool.call command).TellsAll := by
  cases command with
  | create proxy => exact (create_step orderly returns).2
  | delete proxy => exact delete_tells returns
  | deleteId id => exact deleteId_tells returns
  | _ => cases named

/-! ## Pools in which all return -/

theorem prepare_returns (orderly : pool.slab.Orderly live)
    (returns : ∀ initializer, pool.initializer = some initializer →
      InitializerReturns initializer) {index : Nat} (isLive : index ∈ live) :
    ∃ after, prepare index pool = .ok () after := by
  simp only [prepare, bind_apply, get_apply]
  cases chosen : pool.initializer with
  | none => exact ⟨pool, rfl⟩
  | some initializer =>
      rcases edit_inside orderly.sound (orderly.lt_capacity isLive) (initializer index) with
        ⟨store, edited, -⟩
      rcases returns initializer chosen index (Elements.contents pool.slab.store index) with
        ⟨kept, outcome⟩
      rw [outcome] at edited
      simp only [editQuietly, onStore_apply, edited]
      exact ⟨_, rfl⟩

theorem announce_returns (orderly : pool.slab.Orderly live)
    (returns : ∀ subscription ∈ pool.lifecycleListeners,
      ListenerReturns subscription.listener) (phase : Phase) {index : Nat}
    (isLive : index ∈ live) :
    ∃ after, announce lifecycleListeners phase index pool = .ok () after := by
  have found := record_of_inside orderly.sound (orderly.lt_capacity isLive)
  rcases announce_of_looks returns phase found with ⟨journal, told⟩
  exact ⟨_, told⟩

theorem Returning.create (returning : pool.Returning) (orderly : pool.slab.Orderly live)
    (proxy : Proxy) : (pool.call (.create proxy)).Returns := by
  intro faulted
  by_cases own : proxy.owner = pool.id
  · have handedOut := orderly.allocate
    have created := create_of_own own
    cases allotted : Slab.allocate pool.slab with
    | error refusal slab =>
        rw [allotted] at created handedOut
        rw [call_eq (step_create_of_error created)]
        exact congrArg IndexSet.count handedOut.live_eq
    | ok index slab =>
        rw [allotted] at created handedOut
        have isLive := Finset.mem_insert_self index live
        have orderlyAllotted : (pool.withSlab slab).slab.Orderly (insert index live) :=
          handedOut.2.2
        have initializerReturns : ∀ initializer,
            (pool.withSlab slab).initializer = some initializer →
              InitializerReturns initializer := returning.initializer
        rcases prepare_returns orderlyAllotted initializerReturns isLive with ⟨middle, readied⟩
        have orderlyReadied := orderlyAllotted.storeOnly
          ((prepare_elementsOnly index).of_ok readied orderlyAllotted.sound).storeOnly
        have sameListeners : middle.lifecycleListeners = pool.lifecycleListeners :=
          ((prepare_keeps lasting_slabOnly index).of_ok readied).listenersOf_eq .lifecycle
        have listeners := returning.listeners
        rw [← sameListeners] at listeners
        rcases announce_returns orderlyReadied listeners .created isLive with ⟨after, told⟩
        have finished : finishCreation proxy index (pool.withSlab slab) =
            .ok (proxy.pointAt index) after := by
          simp only [finishCreation, bind_apply, adaptExcept_apply, readied, told, pure_apply]
        rw [call_eq (step_create_of_ok (created.trans finished))] at faulted
        cases faulted
  · rw [call_eq (step_create_of_foreign own)] at faulted
    cases faulted

theorem Returning.deleteId (returning : pool.Returning) (orderly : pool.slab.Orderly live)
    (id : Nat) : (pool.step (.deleteId id)).1.isFault = false := by
  by_cases isLive : pool.isLive id = true
  · rcases announce_returns orderly returning.listeners .beforeDelete
      ((isLive_iff orderly).mp isLive) with ⟨told, announced⟩
    have deleted := deleteId_takesBack isLive
    rw [announced] at deleted
    rw [step_deleteId_of_ok deleted]
    rfl
  · rw [step_deleteId_of_not_live (Bool.eq_false_iff.mpr isLive)]
    rfl

/-- In a pool whose initializer and lifecycle listeners return, they return in every call. -/
theorem Returning.call (returning : pool.Returning) (orderly : pool.slab.Orderly live)
    (command : Command) : (pool.call command).Returns := by
  cases command with
  | create proxy => exact returning.create orderly proxy
  | delete proxy =>
      change (pool.step (.delete proxy)).1.isFault = false
      by_cases own : proxy.owner = pool.id
      · rw [step_delete_of_own own]
        exact returning.deleteId orderly proxy.index
      · rw [step_delete_of_foreign own]
        rfl
  | deleteId id => exact returning.deleteId orderly id
  | _ => trivial

omit [LawfulStore σ] in
/-- Only one command replaces the initializer. -/
theorem step_initializer (pool : Pool σ) {command : Command}
    (other : ∀ initializer, command ≠ .setInitializer initializer) :
    (pool.step command).2.initializer = pool.initializer := by
  have lasting : Lasting (fun before after : Pool σ => after.initializer = before.initializer)
      command.topic? := {
    refl := fun _ => rfl
    trans := fun _ _ _ earlier later => later.trans earlier
    withSlab := fun _ _ => rfl
    announce := fun topic _ phase index pool => by rw [stateLeft_announce]; rfl }
  cases confined : command.isConfined with
  | true => exact step_keeps lasting confined pool
  | false => exact (step_of_not_confined pool confined).2 other

omit [LawfulStore σ] in
theorem Returning.step (returning : pool.Returning) {command : Command}
    (returns : command.Returning) : (pool.step command).2.Returning where
  initializer initializer chosen := by
    by_cases replaced : ∃ other, command = .setInitializer other
    · rcases replaced with ⟨other, rfl⟩
      cases chosen
      exact returns
    · rw [step_initializer pool fun other same => replaced ⟨other, same⟩] at chosen
      exact returning.initializer initializer chosen
  listeners subscription member := by
    have known : subscription ∈ listenersOf .lifecycle (pool.step command).2 := member
    rcases mem_listenersOf_step known with before | rfl
    · exact returning.listeners subscription before
    · exact returns

/-- In a run that brings in only initializers and lifecycle listeners that return, they return
in every call. -/
theorem Returning.calls (returning : pool.Returning) (orderly : pool.slab.Orderly live)
    {commands : List Command} (returns : ∀ command ∈ commands, command.Returning) :
    ∀ call ∈ pool.calls commands, call.Returns := by
  induction commands generalizing pool live with
  | nil =>
      intro call made
      cases made
  | cons command rest ih =>
      intro call made
      rcases step_orderly orderly command with ⟨_, orderlyAfter⟩
      rcases List.mem_cons.mp made with rfl | later
      · exact returning.call orderly command
      · apply ih (returning.step (returns command List.mem_cons_self)) orderlyAfter _ call later
        intro other member
        exact returns other (List.mem_cons_of_mem command member)

end RecordPool.Pool
