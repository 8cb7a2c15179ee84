import RecordPool.Pool.Basic
import RecordPool.Proofs.Pool.Structure
import RecordPool.Proofs.Slab.Partition

/-!
# Pools just opened

A pool is opened over the store that its configuration asks for, or over a store that is
given.  A store that is given may be of every kind, and it may have been used before: what
its elements held stays in them.
-/

namespace RecordPool.Pool

variable {σ : Type} [Store σ]

/-- The pool that is opened over a store. -/
def blank (id : PoolId) (layout : Layout) (store : σ) (config : Config) : Pool σ where
  id := id
  layout := layout
  slab := Slab.create store config.policy
  changeListeners := []
  lifecycleListeners := []
  nextListener := 0
  journal := #[]
  initializer := none
  validation := config.validation
  spares := []
  spareLimit := config.spareLimit
  proxiesMinted := 0
  proxiesRecycled := 0

theorem ofStore_ok {id : PoolId} {layout : Layout} {store : σ} {config : Config}
    {system : System} {pool : Pool σ}
    (opened : ofStore id layout store config system = .ok pool) :
    Elements.elementSize store = layout.recordSize ∧ pool = blank id layout store config := by
  unfold ofStore at opened
  by_cases fits : Elements.elementSize store = layout.recordSize
  · rw [if_pos fits] at opened
    rcases except_bind_eq_ok_iff.mp opened with ⟨_, -, made⟩
    exact ⟨fits, (Except.ok.inj made).symm⟩
  · rw [if_neg fits] at opened
    cases opened

theorem ofOpened_ok {id : PoolId} {layout : Layout} {opened : Except (Failure Store.Error) σ}
    {config : Config} {system : System} {pool : Pool σ}
    (made : ofOpened id layout opened config system = .ok pool) :
    ∃ store, opened = .ok store ∧ ofStore id layout store config system = .ok pool := by
  cases opened with
  | error failure => cases made
  | ok store => exact ⟨store, rfl, made⟩

theorem ofConfig_ok {id : PoolId} {layout : Layout} {config : Config} {system : System}
    {pool : Pool Backend} (opened : ofConfig id layout config system = .ok pool) :
    ∃ store, Backend.Opened layout.recordSize config.initialCapacity store ∧
      (system.Serves config.storage.medium → Store.Ample store) ∧
      ofStore id layout store config system = .ok pool := by
  rcases except_bind_eq_ok_iff.mp opened with ⟨_, -, made⟩
  rcases ofOpened_ok made with ⟨store, created, ofStore⟩
  rcases Backend.create_ok created with ⟨openedStore, ample⟩
  exact ⟨store, openedStore, ample, ofStore⟩

theorem chained_ok {id : PoolId} {layout : Layout} {capacity arrayLength : Nat}
    {system : System} {pool : Pool Backend}
    (opened : chained id layout capacity arrayLength system = .ok pool) :
    ∃ store, Backend.Opened layout.recordSize capacity store ∧ Store.Ample store ∧
      ofStore id layout store (Config.chained capacity arrayLength) system = .ok pool := by
  rcases except_bind_eq_ok_iff.mp opened with ⟨_, -, made⟩
  rcases ofOpened_ok made with ⟨store, created, ofStore⟩
  rcases except_map_eq_ok_iff.mp created with ⟨chain, createdChain, rfl⟩
  refine ⟨_, .chain createdChain, ?_, ofStore⟩
  exact Backend.wraps_chain.ample (Chain.ample_createBounded system.serves_heap createdChain)

/-- A property of all pools just opened on any system: over the stores that configurations ask
for, and over given stores of every kind, after every use that was made of them. -/
def OfEveryKind
    (property : (σ : Type) → [Store σ] → [LawfulStore σ] → Pool σ → Prop) : Prop :=
  (∀ (id : PoolId) (layout : Layout) (config : Config) (system : System) (pool : Pool Backend),
    ofConfig id layout config system = .ok pool → property Backend pool) ∧
  (∀ (id : PoolId) (layout : Layout) (capacity arrayLength : Nat) (system : System)
    (pool : Pool Backend),
    chained id layout capacity arrayLength system = .ok pool → property Backend pool) ∧
  ∀ elementSize size : Nat, Store.OfEveryKind elementSize size fun σ _ _ store =>
    ∀ (uses : List Slab.Command) (id : PoolId) (layout : Layout) (config : Config)
      (system : System) (pool : Pool σ),
      ofStore id layout ((Slab.create store .reuse).run uses).2.store config system = .ok pool →
        property σ pool

/-- What holds of all pools over sound stores holds of all pools just opened. -/
theorem ofEveryKind {property : (σ : Type) → [Store σ] → [LawfulStore σ] → Pool σ → Prop}
    (ofSound : ∀ (σ : Type) [Store σ] [LawfulStore σ] (id : PoolId) (layout : Layout)
      (store : σ) (config : Config), LawfulStore.Sound store →
      Elements.elementSize store = layout.recordSize →
      property σ (blank id layout store config)) :
    OfEveryKind property := by
  have ofOpened (σ : Type) [Store σ] [LawfulStore σ] {id : PoolId} {layout : Layout}
      {store : σ} {config : Config} {system : System} {pool : Pool σ}
      (sound : LawfulStore.Sound store)
      (opened : ofStore id layout store config system = .ok pool) : property σ pool := by
    rcases ofStore_ok opened with ⟨fits, rfl⟩
    exact ofSound σ id layout store config sound fits
  refine ⟨?_, ?_, ?_⟩
  · intro id layout config system pool opened
    rcases ofConfig_ok opened with ⟨store, openedStore, -, made⟩
    exact ofOpened Backend openedStore.fresh.sound made
  · intro id layout capacity arrayLength system pool opened
    rcases chained_ok opened with ⟨store, openedStore, -, made⟩
    exact ofOpened Backend openedStore.fresh.sound made
  · intro elementSize size
    apply Store.ofEveryKind
    intro σ _ _ store fresh uses id layout config system pool opened
    rcases (Slab.Orderly.create fresh .reuse).run uses with ⟨live, orderly⟩
    exact ofOpened σ orderly.sound opened

/-- Of all pools just opened holds what follows from what holds of them. -/
theorem OfEveryKind.mp
    {first second : (σ : Type) → [Store σ] → [LawfulStore σ] → Pool σ → Prop}
    (implied : OfEveryKind fun σ _ _ pool => first σ pool → second σ pool)
    (holds : OfEveryKind first) : OfEveryKind second := by
  obtain ⟨configured, chainedPools, given⟩ := implied
  obtain ⟨configured', chainedPools', given'⟩ := holds
  refine ⟨?_, ?_, ?_⟩
  · intro id layout config system pool opened
    exact configured _ _ _ _ _ opened (configured' _ _ _ _ _ opened)
  · intro id layout capacity arrayLength system pool opened
    exact chainedPools _ _ _ _ _ _ opened (chainedPools' _ _ _ _ _ _ opened)
  · intro elementSize size
    obtain ⟨heap, mapped, chain, mappedChain, backend⟩ := given elementSize size
    obtain ⟨heap', mapped', chain', mappedChain', backend'⟩ := given' elementSize size
    refine ⟨?_, ?_, ?_, ?_, ?_⟩
    · intro maxBytes mapper store created uses id layout config system pool opened
      exact heap _ _ _ created _ _ _ _ _ _ opened (heap' _ _ _ created _ _ _ _ _ _ opened)
    · intro maxBytes mapper store created uses id layout config system pool opened
      exact mapped _ _ _ created _ _ _ _ _ _ opened (mapped' _ _ _ created _ _ _ _ _ _ opened)
    · intro arrayLength maxArrays beneath store created uses id layout config system pool opened
      exact chain _ _ _ _ created _ _ _ _ _ _ opened
        (chain' _ _ _ _ created _ _ _ _ _ _ opened)
    · intro arrayLength maxArrays beneath store created uses id layout config system pool opened
      exact mappedChain _ _ _ _ created _ _ _ _ _ _ opened
        (mappedChain' _ _ _ _ created _ _ _ _ _ _ opened)
    · intro store created uses id layout config system pool opened
      exact backend _ created _ _ _ _ _ _ opened (backend' _ created _ _ _ _ _ _ opened)

/-- Nothing is handed out of a pool just opened. -/
theorem orderly_blank [LawfulStore σ] {store : σ} (sound : LawfulStore.Sound store)
    (id : PoolId) (layout : Layout) (config : Config) :
    (blank id layout store config).slab.Orderly ∅ :=
  ⟨Slab.Accounts.create store config.policy, sound, Nat.zero_le _⟩

/-- What holds of all pools whose slab is orderly holds of all pools at all times. -/
theorem ofEveryRun {property : (σ : Type) → [Store σ] → [LawfulStore σ] → Pool σ → Prop}
    (ofOrderly : ∀ (σ : Type) [Store σ] [LawfulStore σ] (pool : Pool σ) (live : Finset Nat),
      pool.slab.Orderly live → property σ pool) :
    OfEveryKind fun σ _ _ pool => ∀ commands, property σ (pool.run commands).2 := by
  apply ofEveryKind
  intro σ _ _ id layout store config sound _ commands
  rcases run_orderly (orderly_blank sound id layout config) commands with ⟨live, orderly⟩
  exact ofOrderly σ _ live orderly

end RecordPool.Pool
