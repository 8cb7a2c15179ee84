import RecordPool.Fixtures
import RecordPool.Proofs.Pool.Mirroring
import RecordPool.Proofs.Pool.Opening

/-!
# Pools refine slot machines

Whatever is asked of a pool, it answers as a slot machine does.  Nothing of how the store
keeps the records, of how the live ids are packed or of who listens is to be seen.  Over a
store that was opened for the pool the slots are blank at first; over a store that was given
they hold what the store held.
-/

namespace RecordPool.Pool

open LawfulStore

variable {σ : Type} [Store σ]

/-- The pool with listeners that only take down what they hear. -/
def attended (pool : Pool σ) : List (Topic × (Phase → Bool)) → Pool σ
  | [] => pool
  | (topic, hears) :: rest =>
      attended (pool.step (.subscribe topic ⟨hears, fun _ => .ok ()⟩)).2 rest

variable [LawfulStore σ] {pool : Pool σ}

theorem attended_ready (ready : pool.Ready) (bystanders : List (Topic × (Phase → Bool))) :
    (pool.attended bystanders).Ready ∧ (pool.attended bystanders).machine = pool.machine := by
  induction bystanders generalizing pool with
  | nil => exact ⟨ready, rfl⟩
  | cons bystander rest ih =>
      rcases bystander with ⟨topic, hears⟩
      have readyAfter :
          (pool.step (.subscribe topic ⟨hears, fun _ => .ok ()⟩)).2.Ready := by
        have calm := ready.calm.subscribe topic ⟨hears, fun _ => .ok ()⟩ fun _ => rfl
        cases topic <;> exact ⟨ready.orderly, ready.ample, calm⟩
      have machineAfter :
          (pool.step (.subscribe topic ⟨hears, fun _ => .ok ()⟩)).2.machine = pool.machine := by
        cases topic <;> rfl
      rw [← machineAfter]
      exact ih readyAfter

/-- Whatever is asked of a pool, and whoever listens without looking, it answers as a slot
machine does, has the live ids and the high-water mark of the machine, and every record
below that mark is what is in the slot of the machine. -/
def RefinesSlots (pool : Pool σ) (machine : SlotMachine) : Prop :=
  ∀ (bystanders : List (Topic × (Phase → Bool))) (requests : List Request),
    let (answers, after) := (pool.attended bystanders).run (requests.map Request.command)
    let (expected, left) := machine.run requests
    answers = expected ∧ after.liveIds = left.live.sort ∧ after.highWater = left.highWater ∧
      ∀ index, index < after.highWater → after.record index = .ok ⟨index, left.slot index⟩

theorem refinesSlots_of_ready (ready : pool.Ready) : RefinesSlots pool pool.machine := by
  intro bystanders requests
  rcases attended_ready ready bystanders with ⟨readyBefore, machineBefore⟩
  rcases run_mirrors readyBefore requests with ⟨answers, readyAfter, machineAfter⟩
  rw [machineBefore] at answers machineAfter
  have orderly := readyAfter.orderly_machine
  refine ⟨answers, ?_, ?_, ?_⟩
  · rw [← machineAfter]
    exact liveIds_eq orderly
  · rw [← machineAfter]
    rfl
  · intro index used
    have reached := Nat.lt_of_lt_of_le used orderly.highWater_le
    rw [readyAfter.record_eq, ← machineAfter]
    exact SlotMachine.record_of_reached reached

theorem refinesSlots_of_opened {id : PoolId} {layout : Layout} {store : σ} {config : Config}
    {system : System} (sound : Sound store) (ample : Store.Ample store)
    (opened : ofStore id layout store config system = .ok pool) :
    RefinesSlots pool
      (SlotMachine.start id config (Store.maxSize store) (Elements.size store)
        (Elements.contents store)) := by
  rcases ofStore_ok opened with ⟨-, rfl⟩
  have account := Slab.Accounts.create store config.policy
  have ready : (blank id layout store config).Ready := by
    refine ⟨⟨∅, account, sound, Nat.zero_le _⟩, ample, ?_⟩
    intro subscription member
    cases member
  have machine_blank : (blank id layout store config).machine =
      SlotMachine.start id config (Store.maxSize store) (Elements.size store)
        (Elements.contents store) := by
    have nothingLive : (blank id layout store config).liveIds.toFinset = ∅ :=
      liveIds_toFinset account
    simp only [machine, nothingLive]
    rfl
  rw [← machine_blank]
  exact refinesSlots_of_ready ready

theorem refinesSlots_of_fresh {id : PoolId} {layout : Layout} {store : σ} {config : Config}
    {system : System} {size : Nat} (fresh : Store.Fresh layout.recordSize size store)
    (ample : Store.Ample store) (opened : ofStore id layout store config system = .ok pool) :
    RefinesSlots pool
      (SlotMachine.start id config (Store.maxSize pool.slab.store) size
        fun _ => Buffer.zeros layout.recordSize) := by
  have refines := refinesSlots_of_opened fresh.sound ample opened
  rw [fresh.size_eq, funext fresh.contents_eq] at refines
  rcases ofStore_ok opened with ⟨-, rfl⟩
  exact refines

/-- Every pool that memory is there for is a slot machine.  Over a store that was opened for it
its slots are blank; over a store that was given they hold what the store held. -/
theorem all_refine_slots :
    (∀ (id : PoolId) (layout : Layout) (config : Config) (system : System)
      (pool : Pool Backend), system.Serves config.storage.medium →
      ofConfig id layout config system = .ok pool →
        RefinesSlots pool
          (SlotMachine.start id config (Store.maxSize pool.slab.store) config.initialCapacity
            fun _ => Buffer.zeros layout.recordSize)) ∧
    (∀ (id : PoolId) (layout : Layout) (capacity arrayLength : Nat) (system : System)
      (pool : Pool Backend), chained id layout capacity arrayLength system = .ok pool →
        RefinesSlots pool
          (SlotMachine.start id (Config.chained capacity arrayLength)
            (Store.maxSize pool.slab.store) capacity
            fun _ => Buffer.zeros layout.recordSize)) ∧
    ∀ elementSize size : Nat, Store.OfEveryKind elementSize size fun σ _ _ store =>
      ∀ (uses : List Slab.Command) (id : PoolId) (layout : Layout) (config : Config)
        (system : System) (pool : Pool σ),
        let given := ((Slab.create store .reuse).run uses).2.store
        Store.Ample given → ofStore id layout given config system = .ok pool →
          RefinesSlots pool
            (SlotMachine.start id config (Store.maxSize given) (Elements.size given)
              (Elements.contents given)) := by
  refine ⟨?_, ?_, ?_⟩
  · intro id layout config system pool served opened
    rcases ofConfig_ok opened with ⟨store, openedStore, ample, made⟩
    exact refinesSlots_of_fresh openedStore.fresh (ample served) made
  · intro id layout capacity arrayLength system pool opened
    rcases chained_ok opened with ⟨store, openedStore, ample, made⟩
    exact refinesSlots_of_fresh openedStore.fresh ample made
  · intro elementSize size
    apply Store.ofEveryKind
    intro σ _ _ store fresh uses id layout config system pool given ample opened
    rcases (Slab.Orderly.create fresh .reuse).run uses with ⟨live, orderly⟩
    exact refinesSlots_of_opened orderly.sound ample opened

/-- A pool of standard configuration, and one over a heap whose element was filled before. -/
theorem heap_refines_slots :
    ∃ (layout : Layout) (pool : Pool Backend) (heap : Heap) (used : Pool Heap),
      let given := ((Slab.create heap .reuse).run
        [.useStore [.fill 0 (List.replicate 4 7)]]).2.store
      Fixture.int.layout = .ok layout ∧ ofConfig ⟨0⟩ layout {} = .ok pool ∧
      Flat.createBounded layout.recordSize 1 64 = .ok heap ∧ Store.Ample given ∧
      ofStore ⟨1⟩ layout given {} = .ok used ∧
      RefinesSlots pool
        (SlotMachine.start ⟨0⟩ {} (Store.maxSize pool.slab.store) 16
          fun _ => Buffer.zeros layout.recordSize) ∧
      RefinesSlots used
        (SlotMachine.start ⟨1⟩ {} (Store.maxSize given) (Elements.size given)
          (Elements.contents given)) := by
  have opened : ∃ (layout : Layout) (pool : Pool Backend) (heap : Heap) (used : Pool Heap),
      Fixture.int.layout = .ok layout ∧ ofConfig ⟨0⟩ layout {} = .ok pool ∧
      Flat.createBounded layout.recordSize 1 64 = .ok heap ∧
      ofStore ⟨1⟩ layout ((Slab.create heap .reuse).run
        [.useStore [.fill 0 (List.replicate 4 7)]]).2.store {} = .ok used := by
    exact ⟨_, _, _, _, rfl, rfl, rfl, rfl⟩
  rcases opened with ⟨layout, pool, heap, used, built, openedPool, openedHeap, openedUsed⟩
  have ample : Store.Ample heap := Flat.ample_createBounded openedHeap fun _ few =>
    Medium.gives_heap (Nat.lt_of_le_of_lt few (by decide))
  have sound : Sound (Store.Cursor.start heap).store :=
    (Flat.createBounded_ok openedHeap).1.sound
  rcases Store.Cursor.run_becomes sound [.fill 0 (List.replicate 4 7)] with
    ⟨_, _, -, becomes⟩
  refine ⟨layout, pool, heap, used, built, openedPool, openedHeap, becomes.ample ample,
    openedUsed, ?_, ?_⟩
  · exact all_refine_slots.1 ⟨0⟩ layout {} _ pool (System.serves_heap _) openedPool
  · exact (all_refine_slots.2.2 layout.recordSize 1).1 64 _ heap openedHeap _ ⟨1⟩ layout {} _
      used (becomes.ample ample) openedUsed

end RecordPool.Pool
