import RecordPool.Fixtures
import RecordPool.Proofs.Layout.Lookup
import RecordPool.Proofs.Pool.Opening
import RecordPool.Proofs.Store.Elements

/-!
# Configurations that can be opened

Three places look at a configuration, one after another: the configuration itself, the store that
is opened, and the growth of that store to the room asked for.  Together they refuse what is
listed as an `Objection`, each with its own error, and a pool is opened for everything else if
the system has the memory.

What would be refused besides, elements of no bytes and a store whose elements are not as long as
the records, cannot come up: built layouts have records of some bytes, and the store is opened for
them.
-/

namespace RecordPool.Pool

/-- What is wrong with a configuration for records of a size.  Each objection is raised only where
there is none of those before it. -/
inductive Objection (recordSize : Nat) (config : Config) : Error → Prop where
  | emptyArrays (chained : config.storage = .chain 0) :
      Objection recordSize config (.invalidConfig .emptyArrays)
  | arraysTooLong {arrayLength : Nat} (chained : config.storage = .chain arrayLength)
      (tooLong : BackendKind.blockMaximum recordSize < arrayLength) :
      Objection recordSize config
        (.store (.invalidConfig
          (.arraysTooLong arrayLength (BackendKind.blockMaximum recordSize))))
  | capacityExceeded (fits : config.storage.Fits recordSize)
      (beyond : config.storage.maximum recordSize < config.initialCapacity) :
      Objection recordSize config
        (.store (.capacityExceeded config.initialCapacity (config.storage.maximum recordSize)))

/-- Nothing is wrong with a configuration exactly if its sub-arrays fit and there can be as many
records as it asks for. -/
theorem forall_not_objection_iff {recordSize : Nat} {config : Config} :
    (∀ error, ¬ Objection recordSize config error) ↔
      config.storage.Fits recordSize ∧
        config.initialCapacity ≤ config.storage.maximum recordSize := by
  constructor
  · intro unobjected
    have fits : config.storage.Fits recordSize := by
      cases kind : config.storage with
      | heap => trivial
      | mapped => trivial
      | chain arrayLength =>
          constructor
          · apply Nat.pos_of_ne_zero
            rintro rfl
            exact unobjected _ (.emptyArrays kind)
          · exact Nat.le_of_not_lt fun tooLong => unobjected _ (.arraysTooLong kind tooLong)
    exact ⟨fits, Nat.le_of_not_lt fun beyond => unobjected _ (.capacityExceeded fits beyond)⟩
  · rintro ⟨fits, within⟩ error (chained | ⟨chained, tooLong⟩ | ⟨-, beyond⟩)
    · rw [chained] at fits
      exact Nat.lt_irrefl 0 fits.1
    · rw [chained] at fits
      exact Nat.not_lt.mpr fits.2 tooLong
    · exact Nat.not_lt.mpr within beyond

/-- A pool as it is right after it was opened. -/
structure JustOpened (id : PoolId) (layout : Layout) (config : Config) (pool : Pool Backend) :
    Prop where
  id_eq : pool.id = id
  layout_eq : pool.layout = layout
  liveCount_eq : pool.liveCount = 0
  highWater_eq : pool.highWater = 0
  version_eq : pool.version = 0
  capacity_eq : pool.capacity = config.initialCapacity
  record_eq : ∀ index, index < pool.capacity →
    pool.record index = .ok ⟨index, .zeros layout.recordSize⟩

theorem justOpened_blank {id : PoolId} {layout : Layout} {config : Config} {store : Backend}
    (fresh : Store.Fresh layout.recordSize config.initialCapacity store) :
    JustOpened id layout config (blank id layout store config) where
  id_eq := rfl
  layout_eq := rfl
  liveCount_eq := rfl
  highWater_eq := rfl
  version_eq := rfl
  capacity_eq := fresh.size_eq
  record_eq index inside := by
    have element := LawfulStore.element_inside fresh.sound inside
    rw [fresh.contents_eq] at element
    change Record.mk index <$> Elements.element store index = _
    rw [element]
    rfl

variable {layout : Layout} {config : Config} {system : System}

/-- Objections are raised before any memory is asked for. -/
theorem ofConfig_of_objection {error : Error} (id : PoolId) (system : System)
    (bytes : 0 < layout.recordSize) (objection : Objection layout.recordSize config error) :
    ofConfig id layout config system = .error (.refused error) := by
  have validated (inhabited : config.storage ≠ .chain 0) : config.validate = .ok () :=
    if_neg inhabited
  rcases objection with chained | ⟨chained, tooLong⟩ | ⟨fits, beyond⟩
  · rw [ofConfig, Config.validate, if_pos chained]
    rfl
  · have inhabited : config.storage ≠ .chain 0 := by
      rw [chained]
      rintro ⟨⟩
      exact Nat.not_lt_zero _ tooLong
    rw [ofConfig, validated inhabited, chained, Backend.create_tooLong bytes tooLong]
    rfl
  · have inhabited : config.storage ≠ .chain 0 := by
      intro chained
      rw [chained] at fits
      exact Nat.lt_irrefl 0 fits.1
    rw [ofConfig, validated inhabited, Backend.create_beyond bytes fits beyond]
    rfl

/-- Once there is a store, only memory for the queue of released proxies may still be missing. -/
theorem ofConfig_of_created {store : Backend} (id : PoolId) (inhabited : config.storage ≠ .chain 0)
    (created : Backend.create config.storage layout.recordSize config.initialCapacity system =
      .ok store) :
    Store.Fresh layout.recordSize config.initialCapacity store ∧
      ofConfig id layout config system =
        if system.queues config.spareLimit then
          .ok (blank id layout store config)
        else
          .error (.fault .blockTooLarge) := by
  have fresh := (Backend.create_ok created).1.fresh
  have validated : config.validate = .ok () := if_neg inhabited
  refine ⟨fresh, ?_⟩
  rw [ofConfig, validated, created]
  change ofStore id layout store config system = _
  rw [ofStore, if_pos fresh.elementSize_eq, Config.checkSpares]
  split <;> rfl

/-- Without an objection there is a store, unless its memory is not mapped. -/
theorem ofConfig_of_unobjected (id : PoolId) (system : System) (bytes : 0 < layout.recordSize)
    (unobjected : ∀ error, ¬ Objection layout.recordSize config error) :
    (∃ store, Store.Fresh layout.recordSize config.initialCapacity store ∧
      ofConfig id layout config system =
        if system.queues config.spareLimit then
          .ok (blank id layout store config)
        else
          .error (.fault .blockTooLarge)) ∨
    ofConfig id layout config system = .error (.refused (.store .mapFailed)) ∧
      ¬ system.Serves config.storage.medium := by
  obtain ⟨fits, within⟩ := forall_not_objection_iff.mp unobjected
  have inhabited : config.storage ≠ .chain 0 := fun chained => unobjected _ (.emptyArrays chained)
  rcases Backend.create_within system bytes fits within with ⟨store, created⟩ | refused
  · exact Or.inl ⟨store, ofConfig_of_created id inhabited created⟩
  · refine Or.inr ⟨?_, ?_⟩
    · have validated : config.validate = .ok () := if_neg inhabited
      rw [ofConfig, validated, refused]
      rfl
    · intro served
      obtain ⟨store, created⟩ := Backend.exists_create served bytes fits within
      rw [refused] at created
      cases created

/-- A refusal is an objection, or the memory is not mapped. -/
theorem objection_of_refused (id : PoolId) (bytes : 0 < layout.recordSize) {error : Error}
    (refused : ofConfig id layout config system = .error (.refused error)) :
    Objection layout.recordSize config error ∨
      error = .store .mapFailed ∧ (∀ other, ¬ Objection layout.recordSize config other) ∧
        ¬ system.Serves config.storage.medium := by
  by_cases unobjected : ∀ other, ¬ Objection layout.recordSize config other
  · rcases ofConfig_of_unobjected id system bytes unobjected with
      ⟨store, -, outcome⟩ | ⟨outcome, unserved⟩
    · rw [refused] at outcome
      split at outcome <;> cases outcome
    · rw [refused] at outcome
      cases outcome
      exact Or.inr ⟨rfl, unobjected, unserved⟩
  · push Not at unobjected
    obtain ⟨other, objection⟩ := unobjected
    have same := ofConfig_of_objection id system bytes objection
    rw [refused] at same
    cases same
    exact Or.inl objection

/-- How the opening of a pool on a system ends for a configuration. -/
structure OpensExactly (system : System) (id : PoolId) (layout : Layout) (config : Config)
    (outcome : Except (Failure Error) (Pool Backend)) : Prop where
  refused_iff : ∀ error, error ≠ .store .mapFailed →
    (outcome = .error (.refused error) ↔ Objection layout.recordSize config error)
  /-- The system has not mapped the memory that nothing was wrong to ask for. -/
  unmapped : outcome = .error (.refused (.store .mapFailed)) →
    (∀ error, ¬ Objection layout.recordSize config error) ∧
      ¬ system.Serves config.storage.medium
  opened : (∀ error, ¬ Objection layout.recordSize config error) →
    system.Serves config.storage.medium → system.queues config.spareLimit = true →
      ∃ pool, outcome = .ok pool ∧ JustOpened id layout config pool
  /-- There is no memory for the queue of released proxies. -/
  unopened : (∀ error, ¬ Objection layout.recordSize config error) →
    system.Serves config.storage.medium → system.queues config.spareLimit = false →
      outcome = .error (.fault .blockTooLarge)
  emptyElements_unraised :
    outcome ≠ .error (.refused (.store (.invalidConfig .emptyElements)))
  elementSize_unraised : ∀ ofStore ofRecord,
    outcome ≠ .error (.refused (.invalidConfig (.elementSize ofStore ofRecord)))

theorem opensExactly_ofConfig (system : System) (id : PoolId) (config : Config)
    (bytes : 0 < layout.recordSize) :
    OpensExactly system id layout config (ofConfig id layout config system) where
  refused_iff error mapped := by
    constructor
    · intro refused
      rcases objection_of_refused id bytes refused with objection | ⟨unmapped, -⟩
      · exact objection
      · exact absurd unmapped mapped
    · exact ofConfig_of_objection id system bytes
  unmapped refused := by
    rcases objection_of_refused id bytes refused with objection | ⟨-, unmapped⟩
    · cases objection
    · exact unmapped
  opened unobjected served queued := by
    rcases ofConfig_of_unobjected id system bytes unobjected with
      ⟨store, fresh, outcome⟩ | ⟨-, unserved⟩
    · rw [if_pos queued] at outcome
      exact ⟨_, outcome, justOpened_blank fresh⟩
    · exact absurd served unserved
  unopened unobjected served unqueued := by
    rcases ofConfig_of_unobjected id system bytes unobjected with
      ⟨store, -, outcome⟩ | ⟨-, unserved⟩
    · rwa [unqueued] at outcome
    · exact absurd served unserved
  emptyElements_unraised refused := by
    rcases objection_of_refused id bytes refused with objection | ⟨unmapped, -⟩
    · cases objection
    · cases unmapped
  elementSize_unraised _ _ refused := by
    rcases objection_of_refused id bytes refused with objection | ⟨unmapped, -⟩
    · cases objection
    · cases unmapped

/-- For the records of a built layout exactly the feasible configurations are opened, whatever the
system beneath, and pools on chained heaps are those of the configurations that ask for them. -/
theorem opens_exactly_feasible {declarations : List Declaration}
    (built : Layout.ofDeclarations declarations = .ok layout) :
    (∀ system id config,
      OpensExactly system id layout config (ofConfig id layout config system)) ∧
    ∀ system id capacity arrayLength,
      chained id layout capacity arrayLength system =
          ofConfig id layout (.chained capacity arrayLength) system ∧
        OpensExactly system id layout (.chained capacity arrayLength)
          (chained id layout capacity arrayLength system) := by
  have bytes : 0 < layout.recordSize := (Layout.tiles_of_built built).recordSize_pos
  constructor
  · intro system id config
    exact opensExactly_ofConfig system id config bytes
  · intro system id capacity arrayLength
    exact ⟨rfl, opensExactly_ofConfig system id (.chained capacity arrayLength) bytes⟩

/-- Particles of 29 bytes, of which a block has room for 74051160, and a chain of heaps that they
are kept in. -/
theorem particle_configs_opened :
    ∃ layout, Layout.ofDeclarations Fixture.particle.declarations = .ok layout ∧
      ofConfig ⟨0⟩ layout { storage := .chain 0 } =
        .error (.refused (.invalidConfig .emptyArrays)) ∧
      ofConfig ⟨0⟩ layout { storage := .chain 74051161 } =
        .error (.refused (.store (.invalidConfig (.arraysTooLong 74051161 74051160)))) ∧
      ofConfig ⟨0⟩ layout { storage := .mapped, initialCapacity := 74051161 } =
        .error (.refused (.store (.capacityExceeded 74051161 74051160))) ∧
      ∃ pool, chained ⟨0⟩ layout 7 4 = .ok pool ∧ JustOpened ⟨0⟩ layout (.chained 7 4) pool := by
  obtain ⟨layout, built, size⟩ : ∃ layout,
      Layout.ofDeclarations Fixture.particle.declarations = .ok layout ∧ layout.recordSize = 29 :=
    ⟨_, rfl, rfl⟩
  have opens := opens_exactly_feasible built
  have refused (config : Config) (error : Error) (mapped : error ≠ .store .mapFailed)
      (objection : Objection 29 config error) :
      ofConfig ⟨0⟩ layout config = .error (.refused error) := by
    rw [← size] at objection
    exact ((opens.1 .usual ⟨0⟩ config).refused_iff error mapped).mpr objection
  obtain ⟨-, chainOpens⟩ := opens.2 .usual ⟨0⟩ 7 4
  refine ⟨layout, built, refused _ _ (by decide) (.emptyArrays rfl),
    refused _ _ (by decide) (.arraysTooLong rfl (by decide)),
    refused _ _ (by decide) (.capacityExceeded trivial (by decide)),
    chainOpens.opened ?_ System.usual.serves_heap (by decide)⟩
  rw [forall_not_objection_iff, size]
  exact ⟨⟨by decide, by decide⟩, by decide⟩

end RecordPool.Pool
