import RecordPool.Proofs.IndexSet.Walk
import RecordPool.Proofs.Pool.Listening
import RecordPool.Proofs.Pool.SlotMachine

/-!
# What a pool is and does as a slot machine

The slot machine that a pool is can be read off the pool.  Each operation of the pool ends
as the same operation of that machine, and leaves a pool that is the machine left.  This is
so as long as listeners look without a fault and the store has memory for all the records
that it may have.
-/

namespace RecordPool.Pool

open LawfulStore

variable {σ : Type} [Store σ]

/-- The slot machine that a pool is. -/
def machine (pool : Pool σ) : SlotMachine where
  id := pool.id
  policy := pool.slab.policy
  validation := pool.validation
  initializer := pool.initializer
  maxSize := Store.maxSize pool.slab.store
  capacity := pool.capacity
  slot := Elements.contents pool.slab.store
  live := pool.liveIds.toFinset
  freed := pool.slab.freed
  highWater := pool.highWater

variable [LawfulStore σ]

/-- A pool of which nothing goes wrong but what its users do wrong. -/
structure Ready (pool : Pool σ) : Prop where
  orderly : ∃ live, pool.slab.Orderly live
  ample : Store.Ample pool.slab.store
  calm : pool.Calm

/-- A computation ends as it is expected of a machine, and leaves a pool which is that machine. -/
structure Mirrors {ε α : Type} (expected : Except ε α × SlotMachine)
    (outcome : EStateM.Result ε (Pool σ) α) : Prop where
  answer_eq : answerOf outcome = expected.1
  ready : (stateLeft outcome).Ready
  machine_eq : (stateLeft outcome).machine = expected.2

variable {pool : Pool σ}

omit [Store σ] [LawfulStore σ] in
theorem liveIds_toFinset {live : Finset Nat} (account : pool.slab.Accounts live) :
    pool.liveIds.toFinset = live := by
  have sorted : pool.liveIds = live.sort := account.represents.toList_eq
  rw [sorted, Finset.sort_toFinset]

theorem Ready.orderly_machine (ready : pool.Ready) : pool.slab.Orderly pool.machine.live := by
  rcases ready.orderly with ⟨live, orderly⟩
  have same : pool.machine.live = live := liveIds_toFinset orderly.account
  rw [same]
  exact orderly

theorem Ready.isLive_eq (ready : pool.Ready) (id : Nat) :
    pool.isLive id = decide (id ∈ pool.machine.live) :=
  ready.orderly_machine.account.isLive_eq id

theorem Ready.withJournal (ready : pool.Ready) (journal : Journal) :
    (pool.withJournal journal).Ready :=
  ⟨ready.orderly, ready.ample, ready.calm⟩

/-! ## Single commands -/

section Uses

variable {store : σ} {size : Nat} {contents : Nat → Buffer}

omit [LawfulStore σ] in
theorem machine_withStore {Sound' : σ → Prop} {Affords' : σ → Nat → Prop}
    (becomes : Store.Becomes Sound' Affords' pool.slab.store store size contents) :
    (pool.withSlab (pool.slab.withStore store)).machine =
      { pool.machine with capacity := size, slot := contents } := by
  have maxSize := becomes.maxSize_eq
  have capacity := becomes.size_eq
  have slots := funext becomes.contents_eq
  simp only [machine, withSlab, Slab.withStore, Pool.capacity, Slab.capacity, maxSize, capacity,
    slots]
  rfl

theorem Ready.withStore (ready : pool.Ready) (larger : pool.capacity ≤ size)
    (becomes : Store.Becomes Sound Affords pool.slab.store store size contents) :
    (pool.withSlab (pool.slab.withStore store)).Ready where
  orderly := by
    rcases ready.orderly with ⟨live, orderly⟩
    exact ⟨live, orderly.storeOnly (Slab.StoreOnly.of_becomes larger becomes)⟩
  ample := becomes.ample ready.ample
  calm := ready.calm

/-- A computation that leaves the pool as it is. -/
theorem mirrors_unchanged {ε α : Type} (ready : pool.Ready) {answer : Except ε α}
    {outcome : EStateM.Result ε (Pool σ) α} (answered : answerOf outcome = answer)
    (same : stateLeft outcome = pool) : Mirrors (answer, pool.machine) outcome where
  answer_eq := answered
  ready := by
    rw [same]
    exact ready
  machine_eq := by rw [same]

end Uses

theorem Ready.record_eq (ready : pool.Ready) (index : Nat) :
    pool.record index = pool.machine.record index := by
  unfold Pool.record SlotMachine.record
  rw [element_eq ready.orderly_machine.sound]
  by_cases inside : index < Elements.size pool.slab.store
  · have reached : index < pool.machine.capacity := inside
    rw [if_pos inside, if_pos reached]
    rfl
  · have unreached : ¬ index < pool.machine.capacity := inside
    rw [if_neg inside, if_neg unreached]
    rfl

/-- Of a record that is in reach, calm listeners are told. -/
theorem Ready.announces (ready : pool.Ready) {listeners : Pool σ → List Subscription}
    (hears : Hears listeners) (phase : Phase) {index : Nat}
    (reached : index < pool.machine.capacity) :
    ∃ journal, announce listeners phase index pool = .ok () (pool.withJournal journal) := by
  apply announce_of_calm ready.calm hears phase
  rw [ready.record_eq]
  exact SlotMachine.record_of_reached reached

theorem editQuietly_mirrors (ready : pool.Ready) (index : Nat) (edit : Edit Unit) :
    Mirrors (pool.machine.edit index edit) (editQuietly index edit pool) := by
  have sound := ready.orderly_machine.sound
  by_cases inside : index < Elements.size pool.slab.store
  · have reached : index < pool.machine.capacity := inside
    rcases edit_inside sound inside edit with ⟨store, done, becomes⟩
    have carried : editQuietly index edit pool =
        withState (pool.withSlab (pool.slab.withStore store))
          (edit.run (Elements.contents pool.slab.store index)) := by
      rw [editQuietly, onStore_apply, done]
      cases edit.run (Elements.contents pool.slab.store index) <;> rfl
    rw [carried, SlotMachine.edit, if_pos reached]
    constructor
    · exact answerOf_withState _ _
    · rw [stateLeft_withState]
      exact ready.withStore (Nat.le_refl _) becomes
    · rw [stateLeft_withState]
      exact machine_withStore becomes
  · have unreached : ¬ index < pool.machine.capacity := inside
    rw [SlotMachine.edit, if_neg unreached, editQuietly, onStore_apply,
      edit_outside sound (Nat.le_of_not_lt inside)]
    exact mirrors_unchanged ready rfl rfl

/-- Calm listeners do not disturb an edit. -/
theorem edit_mirrors (ready : pool.Ready) (notice : Notice) (index : Nat) (edit : Edit Unit) :
    Mirrors (pool.machine.edit index edit) (Pool.edit notice index edit pool) := by
  cases notice with
  | quiet => exact editQuietly_mirrors ready index edit
  | told =>
      by_cases reached : index < pool.machine.capacity
      · rcases ready.announces hears_changeListeners .beforeChange reached with ⟨told, before⟩
        have mirrored := editQuietly_mirrors (ready.withJournal told) index edit
        simp only [Pool.edit, editNotifying, tellBefore, bind_apply, before]
        cases done : editQuietly index edit (pool.withJournal told) with
        | error fault left =>
            rw [done] at mirrored
            exact mirrored
        | ok value left =>
            rw [done] at mirrored
            rcases mirrored with ⟨answer, readyAfter, machineAfter⟩
            rw [stateLeft_ok] at readyAfter machineAfter
            have stillReached : index < left.machine.capacity := by
              rw [machineAfter, SlotMachine.capacity_edit]
              exact reached
            rcases readyAfter.announces hears_changeListeners .afterChange stillReached with
              ⟨toldAfter, after⟩
            simp only [tellAfter, after]
            exact ⟨answer, readyAfter.withJournal toldAfter, machineAfter⟩
      · have missing := (ready.record_eq index).trans (SlotMachine.record_of_unreached reached)
        have mirrored := editQuietly_mirrors ready index edit
        rw [SlotMachine.edit, if_neg reached] at mirrored ⊢
        simp only [Pool.edit, editNotifying, tellBefore, bind_apply]
        rcases announce_of_missing changeListeners .beforeChange missing with before | before
        · simp only [before]
          cases done : editQuietly index edit pool with
          | error fault left =>
              rw [done] at mirrored
              exact mirrored
          | ok value left =>
              rw [done] at mirrored
              cases mirrored.answer_eq
        · rw [before]
          exact mirrors_unchanged ready rfl rfl

theorem writeField_mirrors (ready : pool.Ready) (write : FieldWrite) (proxy : Proxy) :
    Mirrors (pool.machine.write write proxy) (writeField proxy write pool) := by
  by_cases own : proxy.owner = pool.machine.id
  · rw [writeField_of_own own, ready.record_eq, SlotMachine.write, if_pos own]
    cases write.plan (pool.machine.record proxy.index) with
    | ok edit => exact edit_mirrors ready write.notice proxy.index edit
    | error fault => exact mirrors_unchanged ready rfl rfl
  · rw [writeField_of_foreign own, SlotMachine.write, if_neg own]
    exact mirrors_unchanged ready rfl rfl

/-- A computation that can only end in a fault. -/
theorem faultable_mirrors {action : EStateM Fault (Pool σ) Unit}
    {expected : Except Fault Unit × SlotMachine} (mirrors : Mirrors expected (action pool)) :
    Mirrors (SlotMachine.answered expected) (faultable action pool) := by
  rcases expected with ⟨answer, left⟩
  rcases mirrors with ⟨answered, ready, machine⟩
  simp only at answered machine
  simp only [faultable, bind_apply, adaptExcept_apply]
  cases done : action pool with
  | ok _ after =>
      rw [done] at answered ready machine
      subst answered
      exact ⟨rfl, ready, machine⟩
  | error fault after =>
      rw [done] at answered ready machine
      subst answered
      exact ⟨rfl, ready, machine⟩

omit [LawfulStore σ] in
/-- What a pool with another slab is. -/
theorem machine_withSlab {slab : Slab σ} {live : Finset Nat} (account : slab.Accounts live) :
    (pool.withSlab slab).machine =
      { pool.machine with
        policy := slab.policy
        maxSize := Store.maxSize slab.store
        capacity := slab.capacity
        slot := Elements.contents slab.store
        live := live
        freed := slab.freed
        highWater := slab.highWater } := by
  have liveAfter : (pool.withSlab slab).liveIds.toFinset = live := liveIds_toFinset account
  simp only [machine, liveAfter]
  rfl

/-- The slab hands out the id that the machine allots, and no id if it allots none. -/
inductive Allots (pool : Pool σ) :
    Option (Nat × SlotMachine) → EStateM.Result (Failure Store.Error) (Slab σ) Nat → Prop where
  | refused :
      Allots pool none
        (.error (.refused (.capacityExceeded (pool.highWater + 1)
          (Store.maxSize pool.slab.store))) pool.slab)
  | allotted {index : Nat} {machine : SlotMachine} {slab : Slab σ} :
      (pool.withSlab slab).Ready → (pool.withSlab slab).machine = machine →
      index < machine.capacity → Allots pool (some (index, machine)) (.ok index slab)

theorem append_allots (ready : pool.Ready) :
    Allots pool pool.machine.allotNext (Slab.append pool.slab) := by
  have orderly := ready.orderly_machine
  by_cases exhausted : pool.slab.highWater = Store.maxSize pool.slab.store
  · have allotsNone : pool.machine.allotNext = none := if_pos exhausted
    rw [allotsNone, Slab.append_of_exhausted orderly exhausted]
    exact Allots.refused
  · rcases Slab.append_of_not_exhausted orderly ready.ample exhausted with
      ⟨store, appended, larger, room, becomes⟩
    have orderlyAfter : (pool.slab.withStore store).handOutNext.Orderly
        (insert pool.machine.highWater pool.machine.live) := by
      apply (orderly.storeOnly (Slab.StoreOnly.of_becomes larger becomes)).handOutNext
      change pool.slab.highWater < Elements.size store
      rw [becomes.size_eq]
      exact room
    have capacity : Elements.size store = pool.machine.nextCapacity := becomes.size_eq
    have machineAfter :
        (pool.withSlab (pool.slab.withStore store).handOutNext).machine =
          { pool.machine with
            live := insert pool.machine.highWater pool.machine.live
            highWater := pool.machine.highWater + 1
            capacity := pool.machine.nextCapacity } := by
      rw [machine_withSlab orderlyAfter.account]
      simp only [Slab.handOutNext, Slab.markLive, Slab.withStore, Slab.capacity,
        becomes.maxSize_eq, capacity, funext becomes.contents_eq]
      rfl
    have allotsNext : pool.machine.allotNext = some _ := if_neg exhausted
    rw [allotsNext, appended]
    exact Allots.allotted ⟨⟨_, orderlyAfter⟩, becomes.ample ready.ample, ready.calm⟩
      machineAfter room

theorem allocate_allots (ready : pool.Ready) :
    Allots pool pool.machine.allot (Slab.allocate pool.slab) := by
  cases policy : pool.slab.policy with
  | appendOnly =>
      rw [SlotMachine.allot_of_appendOnly policy, Slab.allocate_of_appendOnly policy]
      exact append_allots ready
  | reuse =>
      cases freed : pool.slab.freed with
      | nil =>
          rw [SlotMachine.allot_of_none_freed freed, Slab.allocate_of_none_freed freed]
          exact append_allots ready
      | cons index rest =>
          have orderly := ready.orderly_machine
          have orderlyAfter :
              (pool.slab.handOutAgain index rest).Orderly (insert index pool.machine.live) :=
            ⟨orderly.account.handOutAgain freed, orderly.sound, orderly.highWater_le⟩
          have used : index < pool.slab.highWater := by
            rw [orderly.account.lt_highWater_iff, freed]
            exact Or.inr List.mem_cons_self
          rw [SlotMachine.allot_of_freed policy freed, Slab.allocate_of_freed policy freed]
          apply Allots.allotted
          · exact ⟨⟨_, orderlyAfter⟩, ready.ample, ready.calm⟩
          · exact machine_withSlab orderlyAfter.account
          · exact Nat.lt_of_lt_of_le used orderly.highWater_le

theorem prepare_mirrors (ready : pool.Ready) (index : Nat) :
    Mirrors (pool.machine.prepare index) (prepare index pool) := by
  cases chosen : pool.initializer with
  | none =>
      have machineChosen : pool.machine.initializer = none := chosen
      simp only [prepare, bind_apply, get_apply, chosen, SlotMachine.prepare, machineChosen]
      exact mirrors_unchanged ready rfl rfl
  | some initializer =>
      have machineChosen : pool.machine.initializer = some initializer := chosen
      simp only [prepare, bind_apply, get_apply, chosen, SlotMachine.prepare, machineChosen]
      exact editQuietly_mirrors ready index (initializer index)

/-- Calm listeners do not disturb a creation. -/
theorem finishCreation_mirrors (ready : pool.Ready) (proxy : Proxy) {index : Nat}
    (reached : index < pool.machine.capacity) :
    Mirrors (pool.machine.finish proxy index)
      ((Reply.proxy <$> finishCreation proxy index) pool) := by
  have mirrored := prepare_mirrors ready index
  have capacity := SlotMachine.capacity_prepare pool.machine index
  simp only [map_apply, finishCreation, bind_apply, adaptExcept_apply, SlotMachine.finish]
  rcases expected : pool.machine.prepare index with ⟨answer, left⟩
  rw [expected] at mirrored capacity
  rcases mirrored with ⟨answered, readyAfter, machineAfter⟩
  simp only at answered machineAfter capacity
  cases prepared : prepare index pool with
  | error fault after =>
      rw [prepared] at answered readyAfter machineAfter
      subst answered
      exact ⟨rfl, readyAfter, machineAfter⟩
  | ok _ after =>
      rw [prepared, stateLeft_ok] at readyAfter machineAfter
      rw [prepared] at answered
      subst answered
      have stillReached : index < after.machine.capacity := by
        rw [machineAfter, capacity]
        exact reached
      rcases readyAfter.announces hears_lifecycleListeners .created stillReached with
        ⟨told, announced⟩
      simp only [announced]
      exact ⟨rfl, readyAfter.withJournal told, machineAfter⟩

theorem create_mirrors (ready : pool.Ready) (proxy : Proxy) :
    Mirrors (pool.machine.create proxy) ((Reply.proxy <$> create proxy) pool) := by
  by_cases own : proxy.owner = pool.machine.id
  · have allots := allocate_allots ready
    rw [SlotMachine.create, if_pos own, map_apply, create_of_own own]
    generalize pool.machine.allot = expected at allots ⊢
    generalize Slab.allocate pool.slab = outcome at allots ⊢
    cases allots with
    | refused => exact mirrors_unchanged ready rfl rfl
    | @allotted index machine slab readyAfter machineAfter reached =>
        rw [← machineAfter] at reached
        have mirrored := finishCreation_mirrors readyAfter proxy reached
        rw [machineAfter, map_apply] at mirrored
        exact mirrored
  · rw [SlotMachine.create, if_neg own, map_apply, create_of_foreign own]
    exact mirrors_unchanged ready rfl rfl

/-- Calm listeners do not disturb a deletion. -/
theorem deleteId_mirrors (ready : pool.Ready) (id : Nat) :
    Mirrors (pool.machine.deleteId id) ((deleteId id >>= fun _ => pure Reply.done) pool) := by
  have orderly := ready.orderly_machine
  have isLive_eq := ready.isLive_eq id
  by_cases member : id ∈ pool.machine.live
  · have isLive : pool.isLive id = true := isLive_eq.trans (decide_eq_true member)
    have used : id < pool.slab.highWater :=
      (orderly.account.lt_highWater_iff id).mpr (Or.inl member)
    have reached : id < pool.machine.capacity := Nat.lt_of_lt_of_le used orderly.highWater_le
    rcases ready.announces hears_lifecycleListeners .beforeDelete reached with
      ⟨told, announced⟩
    have stillLive : (pool.withJournal told).slab.isLive id = true := isLive
    have orderlyAfter := orderly.takeBack member
    have machineAfter : (pool.withSlab (pool.slab.takeBack id)).machine = _ :=
      machine_withSlab orderlyAfter.account
    rw [SlotMachine.deleteId, if_pos member, bind_apply, deleteId_of_live isLive, announced]
    simp only [Slab.free_of_live stillLive]
    constructor
    · rfl
    · exact ⟨⟨_, orderlyAfter⟩, ready.ample, ready.calm⟩
    · exact machineAfter
  · have notLive : pool.isLive id = false := isLive_eq.trans (decide_eq_false member)
    rw [SlotMachine.deleteId, if_neg member, bind_apply, deleteId_of_not_live notLive]
    exact mirrors_unchanged ready rfl rfl

theorem delete_mirrors (ready : pool.Ready) (proxy : Proxy) :
    Mirrors (pool.machine.delete proxy) ((delete proxy >>= fun _ => pure Reply.done) pool) := by
  by_cases own : proxy.owner = pool.machine.id
  · have mirrored := deleteId_mirrors ready proxy.index
    rw [bind_apply] at mirrored
    rw [SlotMachine.delete, if_pos own, bind_apply, delete_of_own own]
    exact mirrored
  · rw [SlotMachine.delete, if_neg own, bind_apply, delete_of_foreign own]
    exact mirrors_unchanged ready rfl rfl

theorem lookUp_mirrors (ready : pool.Ready) (id : Nat) (proxy : Proxy) :
    Mirrors (pool.machine.lookUp id proxy, pool.machine)
      (perform (.lookUp id proxy) pool) := by
  simp only [perform, bind_apply, get_apply]
  by_cases own : proxy.owner = pool.id
  · have ownOfMachine : proxy.owner = pool.machine.id := own
    have condition : (pool.validation && !decide (id ∈ pool.machine.live)) = true ↔
        pool.machine.validation = true ∧ id ∉ pool.machine.live := by
      rw [Bool.and_eq_true, Bool.not_eq_true', decide_eq_false_iff_not]
      rfl
    rw [SlotMachine.lookUp, if_pos ownOfMachine]
    simp only [lookUp_of_own own, ready.isLive_eq, condition]
    by_cases unknown : pool.machine.validation = true ∧ id ∉ pool.machine.live
    · simp only [if_pos unknown]
      exact mirrors_unchanged ready rfl rfl
    · simp only [if_neg unknown]
      exact mirrors_unchanged ready rfl rfl
  · have foreign : ¬ proxy.owner = pool.machine.id := own
    rw [SlotMachine.lookUp, if_neg foreign]
    simp only [lookUp_of_foreign own]
    exact mirrors_unchanged ready rfl rfl

theorem lookUpIfLive_mirrors (ready : pool.Ready) (id : Nat) (proxy : Proxy) :
    Mirrors (pool.machine.lookUpIfLive id proxy, pool.machine)
      (perform (.lookUpIfLive id proxy) pool) := by
  apply mirrors_unchanged ready
  · change Except.ok (Reply.found (pool.lookUp? id proxy)) = _
    simp only [lookUp?_eq, SlotMachine.lookUpIfLive, ready.isLive_eq id, decide_eq_true_iff]
    rfl
  · rfl

theorem swap_mirrors (ready : pool.Ready) (left right : Nat) :
    Mirrors (pool.machine.swap left right)
      ((swap left right >>= fun _ => pure Reply.done) pool) := by
  have orderly := ready.orderly_machine
  simp only [bind_apply, swap, adaptExcept_apply, onSlab_apply]
  by_cases leftKnown : left < pool.machine.highWater
  · have leftUsed : ¬ pool.machine.highWater ≤ left := Nat.not_le.mpr leftKnown
    by_cases rightKnown : right < pool.machine.highWater
    · have rightUsed : ¬ pool.machine.highWater ≤ right := Nat.not_le.mpr rightKnown
      have leftInside := Nat.lt_of_lt_of_le leftKnown orderly.highWater_le
      have rightInside := Nat.lt_of_lt_of_le rightKnown orderly.highWater_le
      rcases exchange_inside orderly.sound leftInside rightInside with ⟨store, done, becomes⟩
      rw [Slab.swap_of_known leftKnown rightKnown, done, SlotMachine.swap, if_neg leftUsed,
        if_neg rightUsed]
      constructor
      · rfl
      · exact ready.withStore (Nat.le_refl _) becomes
      · exact machine_withStore becomes
    · have rightUnused : pool.machine.highWater ≤ right := Nat.le_of_not_lt rightKnown
      rw [Slab.swap_of_right_unknown leftKnown rightUnused, SlotMachine.swap, if_neg leftUsed,
        if_pos rightUnused]
      exact mirrors_unchanged ready rfl rfl
  · have leftUnused : pool.machine.highWater ≤ left := Nat.le_of_not_lt leftKnown
    rw [Slab.swap_of_left_unknown leftUnused, SlotMachine.swap, if_pos leftUnused]
    exact mirrors_unchanged ready rfl rfl

theorem reserve_mirrors (ready : pool.Ready) (count : Nat) :
    Mirrors (pool.machine.reserve count)
      ((reserve count >>= fun _ => pure Reply.done) pool) := by
  have sound := ready.orderly_machine.sound
  simp only [bind_apply, reserve, adaptExcept_apply, onSlab_apply]
  by_cases room : count ≤ pool.machine.capacity
  · rw [Slab.reserve_of_room room, SlotMachine.reserve, if_pos room]
    exact mirrors_unchanged ready rfl rfl
  · rw [Slab.reserve_of_no_room room, SlotMachine.reserve, if_neg room]
    by_cases beyond : pool.machine.maxSize < count
    · rw [resize_beyond sound beyond, if_pos beyond]
      exact mirrors_unchanged ready rfl rfl
    · have bounded : count ≤ Store.maxSize pool.slab.store := Nat.le_of_not_lt beyond
      rcases resize_affordable sound bounded (ready.ample count bounded) with ⟨grown, done⟩
      have becomes := resize_ok sound done
      have larger : Elements.size pool.slab.store ≤ count := Nat.le_of_not_le room
      rw [Nat.max_eq_right larger] at becomes
      rw [done, if_neg beyond]
      constructor
      · rfl
      · exact ready.withStore larger becomes
      · exact machine_withStore becomes

/-- What a pool is asked, it does as the machine that it is. -/
theorem step_mirrors (ready : pool.Ready) (request : Request) :
    Mirrors (pool.machine.step request) (perform request.command pool) := by
  cases request with
  | create proxy => exact create_mirrors ready proxy
  | delete proxy => exact delete_mirrors ready proxy
  | deleteId id => exact deleteId_mirrors ready id
  | lookUp id proxy => exact lookUp_mirrors ready id proxy
  | lookUpIfLive id proxy => exact lookUpIfLive_mirrors ready id proxy
  | swap left right => exact swap_mirrors ready left right
  | reserve count => exact reserve_mirrors ready count
  | clear =>
      have orderlyAfter := ready.orderly_machine.clear
      have machineAfter : (pool.withSlab pool.slab.clear).machine = _ :=
        machine_withSlab orderlyAfter.account
      exact ⟨rfl, ⟨⟨_, orderlyAfter⟩, ready.ample, ready.calm⟩, machineAfter⟩
  | setInitializer initializer =>
      exact ⟨rfl, ⟨ready.orderly, ready.ample, ready.calm⟩, rfl⟩
  | write write proxy => exact faultable_mirrors (writeField_mirrors ready write proxy)

/-- A run of a pool, as that of the machine that it is. -/
theorem run_mirrors (ready : pool.Ready) (requests : List Request) :
    (pool.run (requests.map Request.command)).1 = (pool.machine.run requests).1 ∧
      (pool.run (requests.map Request.command)).2.Ready ∧
      (pool.run (requests.map Request.command)).2.machine = (pool.machine.run requests).2 := by
  induction requests generalizing pool with
  | nil => exact ⟨rfl, ready, rfl⟩
  | cons request rest ih =>
      rcases step_mirrors ready request with ⟨answer, readyAfter, machineAfter⟩
      rcases ih readyAfter with ⟨answers, readyFinal, machineFinal⟩
      rw [machineAfter] at answers machineFinal
      simp only [List.map_cons, run, SlotMachine.run, step_eq, answer, answers, true_and]
      exact ⟨readyFinal, machineFinal⟩

end RecordPool.Pool
