import RecordPool.Fixtures
import RecordPool.Proofs.Pool.Calls
import RecordPool.Proofs.Pool.Opening
import RecordPool.Proofs.Pool.Structure

/-!
# Calls that are turned down

A call that is turned down leaves no trace: the records and their ids, the room for them,
the subscriptions, the proxies at hand and what listeners were told are as before, and
nobody was asked on the way, neither a listener nor the initializer.  At most the store has
grown in parts of which nothing is to be seen, when it could not grow as far as it had to.
-/

namespace RecordPool

open LawfulStore

namespace Slab

variable {σ : Type} [Store σ] [LawfulStore σ] {slab left : Slab σ}

/-- A slab that follows from another by a use of the store of which nothing is seen. -/
def Unmoved (before after : Slab σ) : Prop :=
  ∃ store, after = before.withStore store ∧
    Store.Becomes Sound Affords before.store store before.capacity
      (Elements.contents before.store)

theorem Unmoved.refl (sound : Sound slab.store) : Unmoved slab slab :=
  ⟨slab.store, rfl, becomes_self sound⟩

theorem unmoved_of_resize_error (sound : Sound slab.store) {count : Nat}
    {failure : Failure Store.Error} {store : σ}
    (failed : Store.resize count slab.store = .error failure store) :
    Unmoved slab (slab.withStore store) :=
  ⟨store, rfl, resize_error sound failed⟩

theorem unmoved_of_append_error (sound : Sound slab.store) {failure : Failure Store.Error}
    (failed : append slab = .error failure left) : Unmoved slab left := by
  by_cases full : slab.highWater = slab.capacity
  · by_cases maximal : Store.maxSize slab.store < slab.highWater + 1
    · rw [append_of_maximal full maximal] at failed
      cases failed
      exact Unmoved.refl sound
    · rw [append_of_full full maximal] at failed
      cases resized : Store.resize (grownSize slab.store (slab.highWater + 1)) slab.store with
      | ok _ grown =>
          rw [resized] at failed
          cases failed
      | error failure store =>
          rw [resized] at failed
          cases failed
          exact unmoved_of_resize_error sound resized
  · rw [append_of_room full] at failed
    cases failed

theorem unmoved_of_allocate_error (sound : Sound slab.store) {failure : Failure Store.Error}
    (failed : allocate slab = .error failure left) : Unmoved slab left := by
  cases policy : slab.policy with
  | appendOnly =>
      rw [allocate_of_appendOnly policy] at failed
      exact unmoved_of_append_error sound failed
  | reuse =>
      cases freed : slab.freed with
      | nil =>
          rw [allocate_of_none_freed freed] at failed
          exact unmoved_of_append_error sound failed
      | cons index rest =>
          rw [allocate_of_freed policy freed] at failed
          cases failed

theorem unmoved_of_reserve_error (sound : Sound slab.store) {count : Nat}
    {failure : Failure Store.Error} (failed : reserve count slab = .error failure left) :
    Unmoved slab left := by
  by_cases room : count ≤ slab.capacity
  · rw [reserve_of_room room] at failed
    cases failed
  · rw [reserve_of_no_room room] at failed
    cases resized : Store.resize count slab.store with
    | ok _ grown =>
        rw [resized] at failed
        cases failed
    | error failure store =>
        rw [resized] at failed
        cases failed
        exact unmoved_of_resize_error sound resized

omit [LawfulStore σ] in
/-- An exchange is refused before anything is exchanged. -/
theorem eq_of_swap_refused {first second : Nat} {error : Store.Error}
    (refused : swap first second slab = .error (.refused error) left) : left = slab := by
  by_cases firstKnown : first < slab.highWater
  · by_cases secondKnown : second < slab.highWater
    · rw [swap_of_known firstKnown secondKnown] at refused
      cases exchanged : Store.swap first second slab.store with
      | ok _ store =>
          rw [exchanged] at refused
          cases refused
      | error fault store =>
          rw [exchanged] at refused
          cases refused
    · rw [swap_of_right_unknown firstKnown (Nat.le_of_not_lt secondKnown)] at refused
      cases refused
      rfl
  · rw [swap_of_left_unknown (Nat.le_of_not_lt firstKnown)] at refused
    cases refused
    rfl

end Slab

namespace Pool

variable {σ : Type} [Store σ]

/-! ## Refusals, whoever attends -/

/-- The pool with other listeners and another initializer. -/
def attendedBy (pool : Pool σ) (change lifecycle : List Subscription)
    (initializer : Option (Nat → Edit Unit)) : Pool σ :=
  { pool with
    changeListeners := change
    lifecycleListeners := lifecycle
    initializer := initializer }

/-- A command ends with an answer and a slab, whoever listens and however records are
prepared, and changes nothing but the slab. -/
def EndsAlike (pool : Pool σ) (command : Command) (slab : Slab σ) : Prop :=
  ∀ change lifecycle initializer,
    (pool.attendedBy change lifecycle initializer).step command =
      ((pool.step command).1, (pool.attendedBy change lifecycle initializer).withSlab slab)

/-- What a command does without a look at who attends, it does whoever attends. -/
theorem endsAlike_of_unchanged {pool : Pool σ} {command : Command}
    (same : ∀ change lifecycle initializer,
      (pool.attendedBy change lifecycle initializer).step command =
        ((pool.step command).1, pool.attendedBy change lifecycle initializer)) :
    EndsAlike pool command pool.slab :=
  same

/-- A creation that is refused ends before a record is allotted. -/
theorem create_endsAlike [LawfulStore σ] {pool : Pool σ} (sound : Sound pool.slab.store)
    (proxy : Proxy) (refused : (pool.step (.create proxy)).1.isRefusal = true) :
    ∃ slab, Slab.Unmoved pool.slab slab ∧ EndsAlike pool (.create proxy) slab := by
  by_cases own : proxy.owner = pool.id
  · cases allotted : Slab.allocate pool.slab with
    | error failure slab =>
        exists slab
        constructor
        · exact Slab.unmoved_of_allocate_error sound allotted
        · intro change lifecycle initializer
          have ownToo : proxy.owner = (pool.attendedBy change lifecycle initializer).id := own
          have allottedToo :
              Slab.allocate (pool.attendedBy change lifecycle initializer).slab =
                .error failure slab := allotted
          simp only [step_eq, perform, map_apply, create_of_own own, create_of_own ownToo,
            allotted, allottedToo]
          rfl
    | ok index slab =>
        simp only [step_eq, perform, map_apply, create_of_own own, allotted] at refused
        cases finished : finishCreation proxy index (pool.withSlab slab) with
        | ok pointed after =>
            rw [finished] at refused
            cases refused
        | error failure after =>
            rcases finishCreation_error finished with ⟨fault, rfl⟩
            rw [finished] at refused
            cases refused
  · exists pool.slab
    constructor
    · exact Slab.Unmoved.refl sound
    · apply endsAlike_of_unchanged
      intro change lifecycle initializer
      have foreign : proxy.owner ≠ (pool.attendedBy change lifecycle initializer).id := own
      rw [step_create_of_foreign own, step_create_of_foreign foreign]
      rfl

/-- A record is not deleted only if it is not live, which is found out first. -/
theorem deleteId_endsAlike {pool : Pool σ} {id : Nat}
    (refused : (pool.step (.deleteId id)).1.isRefusal = true) :
    EndsAlike pool (.deleteId id) pool.slab := by
  by_cases isLive : pool.isLive id = true
  · simp only [step_eq, perform, bind_apply, deleteId_takesBack isLive] at refused
    cases announced : announce lifecycleListeners .beforeDelete id pool with
    | ok _ told =>
        rw [announced] at refused
        cases refused
    | error fault told =>
        rw [announced] at refused
        cases refused
  · have notLive : pool.isLive id = false := Bool.eq_false_iff.mpr isLive
    apply endsAlike_of_unchanged
    intro change lifecycle initializer
    have notLiveToo : (pool.attendedBy change lifecycle initializer).isLive id = false := notLive
    rw [step_deleteId_of_not_live notLive, step_deleteId_of_not_live notLiveToo]

theorem delete_endsAlike {pool : Pool σ} {proxy : Proxy}
    (refused : (pool.step (.delete proxy)).1.isRefusal = true) :
    EndsAlike pool (.delete proxy) pool.slab := by
  by_cases own : proxy.owner = pool.id
  · rw [step_delete_of_own own] at refused
    intro change lifecycle initializer
    have ownToo : proxy.owner = (pool.attendedBy change lifecycle initializer).id := own
    rw [step_delete_of_own own, step_delete_of_own ownToo]
    exact deleteId_endsAlike refused change lifecycle initializer
  · apply endsAlike_of_unchanged
    intro change lifecycle initializer
    have foreign : proxy.owner ≠ (pool.attendedBy change lifecycle initializer).id := own
    rw [step_delete_of_foreign own, step_delete_of_foreign foreign]
    rfl

/-- A use of the slab has no part for those who attend. -/
theorem onSlab_endsAlike {pool : Pool σ} {command : Command}
    {action : EStateM (Failure Store.Error) (Slab σ) Unit}
    (performs : perform command = do
      EStateM.adaptExcept failureOfStore (onSlab action)
      return Reply.done) :
    EndsAlike pool command (stateLeft (action pool.slab)) := by
  intro change lifecycle initializer
  have sameSlab : (pool.attendedBy change lifecycle initializer).slab = pool.slab := rfl
  simp only [step_eq, performs, bind_apply, adaptExcept_apply, onSlab_apply, sameSlab]
  cases action pool.slab <;> rfl

theorem lookUp_endsAlike (pool : Pool σ) (id : Nat) (proxy : Proxy) :
    EndsAlike pool (.lookUp id proxy) pool.slab := by
  apply endsAlike_of_unchanged
  intro change lifecycle initializer
  have sameLookUp : (pool.attendedBy change lifecycle initializer).lookUp id proxy =
      pool.lookUp id proxy := rfl
  simp only [step_eq, perform, bind_apply, get_apply, sameLookUp]
  cases pool.lookUp id proxy <;> rfl

/-- An exchange that is refused has not touched the slab. -/
theorem slab_of_swap_refused {pool : Pool σ} {left right : Nat}
    (refused : (pool.step (.swap left right)).1.isRefusal = true) :
    stateLeft (Slab.swap left right pool.slab) = pool.slab := by
  simp only [step_eq, perform, Pool.swap, bind_apply, adaptExcept_apply, onSlab_apply] at refused
  cases swapped : Slab.swap left right pool.slab with
  | ok _ slab =>
      rw [swapped] at refused
      cases refused
  | error failure slab =>
      rw [swapped] at refused
      cases failure with
      | fault fault => cases refused
      | refused error =>
          rw [stateLeft_error]
          exact Slab.eq_of_swap_refused swapped

/-- Room that is refused leaves a slab that has not moved. -/
theorem unmoved_of_reserve_refused [LawfulStore σ] {pool : Pool σ} {count : Nat}
    (sound : Sound pool.slab.store) (refused : (pool.step (.reserve count)).1.isRefusal = true) :
    Slab.Unmoved pool.slab (stateLeft (Slab.reserve count pool.slab)) := by
  simp only [step_eq, perform, Pool.reserve, bind_apply, adaptExcept_apply, onSlab_apply]
    at refused
  cases reserved : Slab.reserve count pool.slab with
  | ok _ slab =>
      rw [reserved] at refused
      cases refused
  | error failure slab => exact Slab.unmoved_of_reserve_error sound reserved

theorem release_endsAlike {pool : Pool σ} {proxy : Proxy}
    (refused : (pool.step (.release proxy)).1.isRefusal = true) :
    EndsAlike pool (.release proxy) pool.slab := by
  apply endsAlike_of_unchanged
  intro change lifecycle initializer
  by_cases own : proxy.owner = pool.id
  · simp only [step_eq, perform, Pool.change, release_of_own own] at refused
    cases refused
  · have foreign : proxy.owner ≠ (pool.attendedBy change lifecycle initializer).id := own
    simp only [step_eq, perform, Pool.change, release_of_foreign own, release_of_foreign foreign]
    rfl

omit [Store σ] in
/-- A computation that can only end in a fault is not refused. -/
theorem faultable_not_refused (action : EStateM Fault (Pool σ) Unit) (pool : Pool σ) :
    Answer.isRefusal (answerOf (faultable action pool)) = false := by
  simp only [faultable, bind_apply, adaptExcept_apply]
  cases action pool <;> rfl

/-- A call that is turned down ends before anyone is asked, with a slab that has not moved. -/
theorem step_endsAlike [LawfulStore σ] {pool : Pool σ} (sound : Sound pool.slab.store)
    (command : Command) (refused : (pool.step command).1.isRefusal = true) :
    ∃ slab, Slab.Unmoved pool.slab slab ∧ EndsAlike pool command slab := by
  cases command with
  | create proxy => exact create_endsAlike sound proxy refused
  | delete proxy => exact ⟨pool.slab, Slab.Unmoved.refl sound, delete_endsAlike refused⟩
  | deleteId id => exact ⟨pool.slab, Slab.Unmoved.refl sound, deleteId_endsAlike refused⟩
  | lookUp id proxy => exact ⟨pool.slab, Slab.Unmoved.refl sound, lookUp_endsAlike pool id proxy⟩
  | lookUpIfLive id proxy =>
      exact ⟨pool.slab, Slab.Unmoved.refl sound, endsAlike_of_unchanged fun _ _ _ => rfl⟩
  | swap left right =>
      refine ⟨stateLeft (Slab.swap left right pool.slab), ?_, onSlab_endsAlike rfl⟩
      rw [slab_of_swap_refused refused]
      exact Slab.Unmoved.refl sound
  | reserve count =>
      exact ⟨_, unmoved_of_reserve_refused sound refused, onSlab_endsAlike rfl⟩
  | release proxy => exact ⟨pool.slab, Slab.Unmoved.refl sound, release_endsAlike refused⟩
  | write write proxy =>
      rw [step_eq, perform, faultable_not_refused] at refused
      cases refused
  | edit notice index edit =>
      rw [step_eq, perform, faultable_not_refused] at refused
      cases refused
  | notify index =>
      rw [step_eq, perform, faultable_not_refused] at refused
      cases refused
  | _ => cases refused

/-! ## What is left of a refusal -/

/-- Of two pools the second is the first in everything but what is inside the store, and in
nothing of that that is seen: the live and the freed ids, the high-water mark, the version,
the subscriptions and what was told to them, the initializer, the proxies at hand and their
counts are the same, and so are the capacity and all records. -/
structure Untouched (before after : Pool σ) : Prop where
  eq_but_store : after = before.withSlab (before.slab.withStore after.slab.store)
  capacity_eq : after.capacity = before.capacity
  record_eq : ∀ index, after.record index = before.record index

theorem Untouched.of_unmoved [LawfulStore σ] {pool : Pool σ} (sound : Sound pool.slab.store)
    {slab : Slab σ} (unmoved : Slab.Unmoved pool.slab slab) :
    Untouched pool (pool.withSlab slab) := by
  rcases unmoved with ⟨store, rfl, becomes⟩
  constructor
  · rfl
  · exact becomes.size_eq
  · intro index
    have sameSize : Elements.size store = Elements.size pool.slab.store := becomes.size_eq
    change (do return ⟨index, ← Elements.element store index⟩ : Except Fault Record) =
      (do return ⟨index, ← Elements.element pool.slab.store index⟩)
    rw [element_eq becomes.sound, element_eq sound, sameSize, becomes.contents_eq]

/-- The proxy at hand is pointed at a record last, when nothing can go wrong any more. -/
theorem proxy_of_createAimed_error {hand left : Hand σ} {failure : Failure Error}
    (failed : createAimed hand = .error failure left) : left.proxy = hand.proxy := by
  by_cases own : hand.proxy.owner = hand.pool.id
  · simp only [createAimed, bind_apply, get_apply, checkOwner, if_pos own, onPool_apply,
      adaptExcept_apply, onSlab_apply] at failed
    cases allotted : Slab.allocate hand.pool.slab with
    | error failure slab =>
        rw [allotted] at failed
        cases failed
        rfl
    | ok index slab =>
        simp only [allotted] at failed
        cases readied : prepare index (hand.pool.withSlab slab) with
        | error fault broken =>
            simp only [readied] at failed
            cases failed
            rfl
        | ok _ prepared =>
            simp only [readied] at failed
            cases told : announce lifecycleListeners .created index prepared with
            | error fault broken =>
                simp only [told] at failed
                cases failed
                rfl
            | ok _ done =>
                simp only [told] at failed
                cases failed
  · simp only [createAimed, bind_apply, get_apply, checkOwner, if_neg own, throw_apply] at failed
    cases failed
    rfl

omit [Store σ] in
theorem proxy_of_aim_error {pool : Pool σ} {id : Nat} {proxy left : Proxy} {error : Error}
    (failed : pool.aim id proxy = .error error left) : left = proxy := by
  by_cases own : proxy.owner = pool.id
  · rw [aim_of_own own] at failed
    split at failed <;> cases failed
    rfl
  · rw [aim_of_foreign own] at failed
    cases failed
    rfl

/-- The proxy passed with a call that is turned down is as it was. -/
theorem proxyAfter_of_refused {pool : Pool σ} {command : Command}
    (refused : (pool.step command).1.isRefusal = true) :
    pool.proxyAfter command = command.proxy? := by
  cases command with
  | create proxy =>
      rw [step_eq, perform, map_apply, create] at refused
      cases created : createAimed ⟨pool, proxy⟩ with
      | ok _ hand =>
          rw [created] at refused
          cases refused
      | error failure hand =>
          have same := proxy_of_createAimed_error created
          rw [proxyAfter, created, stateLeft_error, same]
          rfl
  | lookUp id proxy =>
      simp only [step_eq, perform, bind_apply, get_apply, lookUp] at refused
      cases aimed : pool.aim id proxy with
      | ok _ pointed =>
          rw [aimed] at refused
          cases refused
      | error error left =>
          have same := proxy_of_aim_error aimed
          rw [proxyAfter, aimed, stateLeft_error, same]
          rfl
  | lookUpIfLive id proxy =>
      simp only [step_eq, perform, bind_apply, get_apply, lookUp?_eq] at refused
      by_cases found : proxy.owner = pool.id ∧ pool.isLive id
      · rw [if_pos found] at refused
        cases refused
      · rw [proxyAfter, aimIfLive, if_neg found]
        rfl
  | release proxy =>
      by_cases own : proxy.owner = pool.id
      · simp only [step_eq, perform, Pool.change, release_of_own own] at refused
        cases refused
      · simp only [proxyAfter, release_of_foreign own]
        rfl
  | _ => rfl

/-- Every call that is turned down leaves the pool and the proxy passed as they were, and
ends as it would with any other listeners, of which none is told anything, and with any
other initializer. -/
def RefusesWithoutTrace (pool : Pool σ) : Prop :=
  ∀ command, (pool.step command).1.isRefusal = true →
    Untouched pool (pool.step command).2 ∧
    pool.proxyAfter command = command.proxy? ∧
    EndsAlike pool command (pool.step command).2.slab

theorem refusesWithoutTrace_of_sound [LawfulStore σ] {pool : Pool σ}
    (sound : Sound pool.slab.store) : RefusesWithoutTrace pool := by
  intro command refused
  rcases step_endsAlike sound command refused with ⟨slab, unmoved, alike⟩
  have step_eq : pool.step command = ((pool.step command).1, pool.withSlab slab) :=
    alike pool.changeListeners pool.lifecycleListeners pool.initializer
  have left_eq : (pool.step command).2 = pool.withSlab slab := congrArg Prod.snd step_eq
  rw [left_eq]
  exact ⟨Untouched.of_unmoved sound unmoved, proxyAfter_of_refused refused, alike⟩

/-- Pools turn calls down without a trace at all times, whatever the system beneath answers, and
so do pools over any other store that keeps the contract, however and whenever it fails. -/
theorem all_refuse_without_trace :
    (OfEveryKind fun _ _ _ pool => ∀ commands, RefusesWithoutTrace (pool.run commands).2) ∧
    ∀ (σ : Type) [Store σ] [LawfulStore σ] (store : σ), Sound store →
      ∀ (id : PoolId) (layout : Layout) (config : Config) (system : System) (pool : Pool σ),
        ofStore id layout store config system = .ok pool →
          ∀ commands, RefusesWithoutTrace (pool.run commands).2 := by
  constructor
  · apply ofEveryRun
    intro σ _ _ pool live orderly
    exact refusesWithoutTrace_of_sound orderly.sound
  · intro σ _ _ store sound id layout config system pool opened commands
    rcases ofStore_ok opened with ⟨-, rfl⟩
    rcases run_orderly (orderly_blank sound id layout config) commands with ⟨_, orderly⟩
    exact refusesWithoutTrace_of_sound orderly.sound

/-- A creation is refused when a chain has grown half way, and leaves no trace. -/
theorem scarce_chain_refuses_without_trace :
    ∃ (layout : Layout) (chain : Chain Mapped) (pool : Pool (Chain Mapped)),
      Fixture.int.layout = .ok layout ∧
      Chain.createBounded layout.recordSize 1 0 8 .faltering = .ok chain ∧ Sound chain ∧
      ofStore ⟨0⟩ layout chain {} = .ok pool ∧
      let created := (pool.run []).2.step (.create (.unbound ⟨0⟩))
      pool.slab.store.arrays.size = 0 ∧ created.2.slab.store.arrays.size = 1 ∧
      created.1 = .error (.refused (.store .mapFailed)) ∧
      RefusesWithoutTrace (pool.run []).2 := by
  have opened : ∃ (layout : Layout) (chain : Chain Mapped)
      (pool : Pool (Chain Mapped)), Fixture.int.layout = .ok layout ∧
      Chain.createBounded layout.recordSize 1 0 8 .faltering = .ok chain ∧
      ofStore ⟨0⟩ layout chain {} = .ok pool ∧
      let created := (pool.run []).2.step (.create (.unbound ⟨0⟩))
      pool.slab.store.arrays.size = 0 ∧ created.2.slab.store.arrays.size = 1 ∧
      created.1 = .error (.refused (.store .mapFailed)) :=
    ⟨_, _, _, rfl, rfl, rfl, rfl, rfl, rfl⟩
  rcases opened with ⟨layout, chain, pool, built, created, opened, before, after, refused⟩
  have sound : Sound chain := (Chain.createBounded_ok created).1.sound
  exact ⟨layout, chain, pool, built, created, sound, opened, before, after, refused,
    all_refuse_without_trace.2 (Chain Mapped) chain sound ⟨0⟩ layout {} .usual pool opened []⟩

end Pool

end RecordPool
