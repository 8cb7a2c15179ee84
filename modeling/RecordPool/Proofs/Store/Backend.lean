import RecordPool.Proofs.Store.Chain.Elements
import RecordPool.Proofs.Store.Flat
import RecordPool.Store.Backend

/-!
# Stores chosen at run time keep the contract

A backend does everything in the way of the store that it wraps.  The four kinds of
backends wrap stores of different types, but what that means is the same for all of them
(`Wraps`), and what is promised of the wrapped store is promised of the backend.
-/

namespace RecordPool

namespace Backend

/-- The states that a backend can be in. -/
def Sound : Backend → Prop
  | .heap store => LawfulStore.Sound store
  | .mapped store => LawfulStore.Sound store
  | .chain store => LawfulStore.Sound store
  | .mappedChain store => LawfulStore.Sound store

/-- Whether there is memory for a number of elements. -/
def Affords : Backend → Nat → Prop
  | .heap store => LawfulStore.Affords store
  | .mapped store => LawfulStore.Affords store
  | .chain store => LawfulStore.Affords store
  | .mappedChain store => LawfulStore.Affords store

/-- A constructor under which backends do what the wrapped stores do. -/
structure Wraps {σ : Type} [Store σ] [LawfulStore σ] (wrap : σ → Backend) : Prop where
  elementSize_eq : ∀ store, Elements.elementSize (wrap store) = Elements.elementSize store
  size_eq : ∀ store, Elements.size (wrap store) = Elements.size store
  maxSize_eq : ∀ store, Store.maxSize (wrap store) = Store.maxSize store
  element_eq : ∀ store, Elements.element (wrap store) = Elements.element store
  resize_eq : ∀ count store,
    Store.resize count (wrap store) = wrapped wrap (Store.resize count store)
  overwrite_eq : ∀ index contents store,
    Elements.overwrite index contents (wrap store) =
      wrapped wrap (Elements.overwrite index contents store)
  swap_eq : ∀ left right store,
    Store.swap left right (wrap store) = wrapped wrap (Store.swap left right store)
  sound_iff : ∀ store, (wrap store).Sound ↔ LawfulStore.Sound store
  affords_iff : ∀ store count, (wrap store).Affords count ↔ LawfulStore.Affords store count

theorem wraps_heap : Wraps Backend.heap := by
  constructor <;> intros <;> rfl

theorem wraps_mapped : Wraps Backend.mapped := by
  constructor <;> intros <;> rfl

theorem wraps_chain : Wraps Backend.chain := by
  constructor <;> intros <;> rfl

theorem wraps_mappedChain : Wraps Backend.mappedChain := by
  constructor <;> intros <;> rfl

/-- Every backend wraps a store that keeps the contract. -/
theorem exists_wraps (backend : Backend) :
    ∃ (σ : Type) (_ : Store σ) (_ : LawfulStore σ) (wrap : σ → Backend) (store : σ),
      Wraps wrap ∧ backend = wrap store := by
  cases backend with
  | heap store => exact ⟨_, _, _, _, store, wraps_heap, rfl⟩
  | mapped store => exact ⟨_, _, _, _, store, wraps_mapped, rfl⟩
  | chain store => exact ⟨_, _, _, _, store, wraps_chain, rfl⟩
  | mappedChain store => exact ⟨_, _, _, _, store, wraps_mappedChain, rfl⟩

namespace Wraps

variable {σ : Type} [Store σ] [LawfulStore σ] {wrap : σ → Backend} {store after : σ}

theorem contents_eq (wraps : Wraps wrap) (store : σ) :
    Elements.contents (wrap store) = Elements.contents store := by
  funext index
  unfold Elements.contents
  rw [wraps.element_eq, wraps.elementSize_eq]

/-- What the wrapped store becomes, the backend becomes. -/
theorem becomes (wraps : Wraps wrap) {size : Nat} {contents : Nat → Buffer}
    (inner : Store.Becomes LawfulStore.Sound LawfulStore.Affords store after size contents) :
    Store.Becomes Sound Affords (wrap store) (wrap after) size contents where
  sound := (wraps.sound_iff after).mpr inner.sound
  elementSize_eq := by
    rw [wraps.elementSize_eq, wraps.elementSize_eq]
    exact inner.elementSize_eq
  maxSize_eq := by
    rw [wraps.maxSize_eq, wraps.maxSize_eq]
    exact inner.maxSize_eq
  affords_iff count := by
    rw [wraps.affords_iff, wraps.affords_iff]
    exact inner.affords_iff count
  size_eq := by
    rw [wraps.size_eq]
    exact inner.size_eq
  contents_eq index := by
    rw [wraps.contents_eq]
    exact inner.contents_eq index

end Wraps

instance : LawfulStore Backend where
  Sound := Sound
  Affords := Affords
  elementSize_pos {backend} sound := by
    obtain ⟨σ, _, _, wrap, store, wraps, rfl⟩ := exists_wraps backend
    rw [wraps.elementSize_eq]
    exact LawfulStore.elementSize_pos ((wraps.sound_iff store).mp sound)
  size_le_maxSize {backend} sound := by
    obtain ⟨σ, _, _, wrap, store, wraps, rfl⟩ := exists_wraps backend
    rw [wraps.size_eq, wraps.maxSize_eq]
    exact LawfulStore.size_le_maxSize ((wraps.sound_iff store).mp sound)
  element_eq {backend} sound index := by
    obtain ⟨σ, _, _, wrap, store, wraps, rfl⟩ := exists_wraps backend
    rw [wraps.element_eq, wraps.size_eq, wraps.contents_eq]
    exact LawfulStore.element_eq ((wraps.sound_iff store).mp sound) index
  size_contents {backend} sound index := by
    obtain ⟨σ, _, _, wrap, store, wraps, rfl⟩ := exists_wraps backend
    rw [wraps.contents_eq, wraps.elementSize_eq]
    exact LawfulStore.size_contents ((wraps.sound_iff store).mp sound) index
  resize_within {backend count} sound within := by
    obtain ⟨σ, _, _, wrap, store, wraps, rfl⟩ := exists_wraps backend
    rw [wraps.size_eq] at within
    rw [wraps.resize_eq, LawfulStore.resize_within ((wraps.sound_iff store).mp sound) within]
    rfl
  resize_beyond {backend count} sound beyond := by
    obtain ⟨σ, _, _, wrap, store, wraps, rfl⟩ := exists_wraps backend
    rw [wraps.maxSize_eq] at beyond
    rw [wraps.resize_eq, LawfulStore.resize_beyond ((wraps.sound_iff store).mp sound) beyond,
      wraps.maxSize_eq]
    rfl
  resize_affordable {backend count} sound within affordable := by
    obtain ⟨σ, _, _, wrap, store, wraps, rfl⟩ := exists_wraps backend
    rw [wraps.maxSize_eq] at within
    obtain ⟨grown, done⟩ := LawfulStore.resize_affordable ((wraps.sound_iff store).mp sound)
      within ((wraps.affords_iff store count).mp affordable)
    exact ⟨wrap grown, by rw [wraps.resize_eq, done]; rfl⟩
  resize_ok {backend grown count} sound done := by
    obtain ⟨σ, _, _, wrap, store, wraps, rfl⟩ := exists_wraps backend
    rw [wraps.resize_eq] at done
    cases resized : Store.resize count store with
    | error failure left =>
        rw [resized] at done
        cases done
    | ok _ after =>
        rw [resized] at done
        cases done
        rw [wraps.size_eq, wraps.contents_eq]
        exact wraps.becomes (LawfulStore.resize_ok ((wraps.sound_iff store).mp sound) resized)
  resize_error {backend left count failure} sound refused := by
    obtain ⟨σ, _, _, wrap, store, wraps, rfl⟩ := exists_wraps backend
    rw [wraps.resize_eq] at refused
    cases resized : Store.resize count store with
    | ok _ after =>
        rw [resized] at refused
        cases refused
    | error failure after =>
        rw [resized] at refused
        cases refused
        rw [wraps.size_eq, wraps.contents_eq]
        exact wraps.becomes (LawfulStore.resize_error ((wraps.sound_iff store).mp sound) resized)
  overwrite_inside {backend index contents} sound inside fits := by
    obtain ⟨σ, _, _, wrap, store, wraps, rfl⟩ := exists_wraps backend
    rw [wraps.size_eq] at inside
    rw [wraps.elementSize_eq] at fits
    obtain ⟨after, done, becomes⟩ :=
      LawfulStore.overwrite_inside ((wraps.sound_iff store).mp sound) inside fits
    refine ⟨wrap after, by rw [wraps.overwrite_eq, done]; rfl, ?_⟩
    rw [wraps.size_eq, wraps.contents_eq]
    exact wraps.becomes becomes
  overwrite_outside {backend index contents} sound outside := by
    obtain ⟨σ, _, _, wrap, store, wraps, rfl⟩ := exists_wraps backend
    rw [wraps.size_eq] at outside
    rw [wraps.overwrite_eq,
      LawfulStore.overwrite_outside ((wraps.sound_iff store).mp sound) outside, wraps.size_eq]
    rfl
  swap_self {backend index} := by
    obtain ⟨σ, _, _, wrap, store, wraps, rfl⟩ := exists_wraps backend
    rw [wraps.swap_eq, LawfulStore.swap_self]
    rfl
  swap_inside {backend left right} sound different leftInside rightInside := by
    obtain ⟨σ, _, _, wrap, store, wraps, rfl⟩ := exists_wraps backend
    rw [wraps.size_eq] at leftInside rightInside
    obtain ⟨after, done, becomes⟩ := LawfulStore.swap_inside ((wraps.sound_iff store).mp sound)
      different leftInside rightInside
    refine ⟨wrap after, by rw [wraps.swap_eq, done]; rfl, ?_⟩
    rw [wraps.size_eq, wraps.contents_eq]
    exact wraps.becomes becomes
  swap_outside {backend left right} sound different outside := by
    obtain ⟨σ, _, _, wrap, store, wraps, rfl⟩ := exists_wraps backend
    rw [wraps.size_eq] at outside
    obtain ⟨fault, done⟩ :=
      LawfulStore.swap_outside ((wraps.sound_iff store).mp sound) different outside
    exact ⟨fault, by rw [wraps.swap_eq, done]; rfl⟩

/-- The backends just opened, whatever their kind, their bounds and the system beneath. -/
inductive Opened (elementSize count : Nat) : Backend → Prop where
  | heap {maxBytes : Nat} {mapper : Mapper} {store : Heap} :
      Flat.createBounded elementSize count maxBytes mapper = .ok store →
      Opened elementSize count (.heap store)
  | mapped {maxBytes : Nat} {mapper : Mapper} {store : Mapped} :
      Flat.createBounded elementSize count maxBytes mapper = .ok store →
      Opened elementSize count (.mapped store)
  | chain {arrayLength maxArrays : Nat} {system : System} {store : Chain Heap} :
      Chain.createBounded elementSize arrayLength count maxArrays system = .ok store →
      Opened elementSize count (.chain store)
  | mappedChain {arrayLength maxArrays : Nat} {system : System} {store : Chain Mapped} :
      Chain.createBounded elementSize arrayLength count maxArrays system = .ok store →
      Opened elementSize count (.mappedChain store)

theorem Wraps.fresh {σ : Type} [Store σ] [LawfulStore σ] {wrap : σ → Backend} {store : σ}
    {elementSize count : Nat} (wraps : Wraps wrap) (inner : Store.Fresh elementSize count store) :
    Store.Fresh elementSize count (wrap store) where
  sound := (wraps.sound_iff store).mpr inner.sound
  elementSize_eq := (wraps.elementSize_eq store).trans inner.elementSize_eq
  size_eq := (wraps.size_eq store).trans inner.size_eq
  contents_eq index := by
    rw [wraps.contents_eq]
    exact inner.contents_eq index

theorem Wraps.ample {σ : Type} [Store σ] [LawfulStore σ] {wrap : σ → Backend} {store : σ}
    (wraps : Wraps wrap) (inner : Store.Ample store) : Store.Ample (wrap store) := by
  intro count within
  rw [wraps.maxSize_eq] at within
  exact (wraps.affords_iff store count).mpr (inner count within)

theorem Opened.fresh {elementSize count : Nat} {backend : Backend}
    (opened : Opened elementSize count backend) : Store.Fresh elementSize count backend := by
  cases opened with
  | heap created => exact wraps_heap.fresh (Flat.createBounded_ok created).1
  | mapped created => exact wraps_mapped.fresh (Flat.createBounded_ok created).1
  | chain created => exact wraps_chain.fresh (Chain.createBounded_ok created).1
  | mappedChain created => exact wraps_mappedChain.fresh (Chain.createBounded_ok created).1

end Backend

/-- A property of all stores just opened, whatever their kind, their bounds and the system
beneath. -/
def Store.OfEveryKind (elementSize size : Nat)
    (property : (σ : Type) → [Store σ] → [LawfulStore σ] → σ → Prop) : Prop :=
  (∀ (maxBytes : Nat) (mapper : Mapper) (store : Heap),
    Flat.createBounded elementSize size maxBytes mapper = .ok store → property Heap store) ∧
  (∀ (maxBytes : Nat) (mapper : Mapper) (store : Mapped),
    Flat.createBounded elementSize size maxBytes mapper = .ok store → property Mapped store) ∧
  (∀ (arrayLength maxArrays : Nat) (system : System) (store : Chain Heap),
    Chain.createBounded elementSize arrayLength size maxArrays system = .ok store →
      property (Chain Heap) store) ∧
  (∀ (arrayLength maxArrays : Nat) (system : System) (store : Chain Mapped),
    Chain.createBounded elementSize arrayLength size maxArrays system = .ok store →
      property (Chain Mapped) store) ∧
  ∀ backend : Backend, Backend.Opened elementSize size backend → property Backend backend

/-- What follows from the contract holds of stores of every kind. -/
theorem Store.ofEveryKind {elementSize size : Nat}
    {property : (σ : Type) → [Store σ] → [LawfulStore σ] → σ → Prop}
    (ofFresh : ∀ (σ : Type) [Store σ] [LawfulStore σ] (store : σ),
      Store.Fresh elementSize size store → property σ store) :
    Store.OfEveryKind elementSize size property := by
  refine ⟨?_, ?_, ?_, ?_, ?_⟩
  · intro maxBytes mapper store opened
    exact ofFresh Heap store (Flat.createBounded_ok opened).1
  · intro maxBytes mapper store opened
    exact ofFresh Mapped store (Flat.createBounded_ok opened).1
  · intro arrayLength maxArrays system store opened
    exact ofFresh (Chain Heap) store (Chain.createBounded_ok opened).1
  · intro arrayLength maxArrays system store opened
    exact ofFresh (Chain Mapped) store (Chain.createBounded_ok opened).1
  · intro backend opened
    exact ofFresh Backend backend opened.fresh

/-! ## Kinds that can be opened -/

namespace BackendKind

/-- Where a store of a kind takes its memory from. -/
def medium : BackendKind → Medium
  | .heap => .heap
  | .mapped => .mapped
  | .chain _ => .heap

/-- The number of elements that one block of memory can have: those of 2 GiB less a byte. -/
def blockMaximum (elementSize : Nat) : Nat :=
  0x7fffffff / elementSize

/-- The number of elements that a store of a kind can have. -/
def maximum (elementSize : Nat) : BackendKind → Nat
  | .heap => blockMaximum elementSize
  | .mapped => blockMaximum elementSize
  | .chain arrayLength => min ((UInt32.size - 1) * arrayLength) (UInt64.size - 1)

/-- The sub-arrays, if there are some, have elements, and no more than a block can have. -/
def Fits (elementSize : Nat) : BackendKind → Prop
  | .heap => True
  | .mapped => True
  | .chain arrayLength => 0 < arrayLength ∧ arrayLength ≤ blockMaximum elementSize

end BackendKind

namespace Backend

variable {kind : BackendKind} {elementSize count : Nat} {system : System}

/-- The stores that configurations ask for have memory for all that they may grow to, if the
system serves. -/
theorem create_ok {backend : Backend}
    (created : Backend.create kind elementSize count system = .ok backend) :
    Opened elementSize count backend ∧ (system.Serves kind.medium → Store.Ample backend) := by
  cases kind with
  | heap =>
      obtain ⟨store, opened, rfl⟩ := except_map_eq_ok_iff.mp created
      exact ⟨.heap opened, fun served =>
        wraps_heap.ample (Flat.ample_createBounded opened (served 0))⟩
  | mapped =>
      obtain ⟨store, opened, rfl⟩ := except_map_eq_ok_iff.mp created
      exact ⟨.mapped opened, fun served =>
        wraps_mapped.ample (Flat.ample_createBounded opened (served 0))⟩
  | chain arrayLength =>
      obtain ⟨store, opened, rfl⟩ := except_map_eq_ok_iff.mp created
      exact ⟨.chain opened, fun served =>
        wraps_chain.ample (Chain.ample_createBounded served opened)⟩

theorem create_tooLong {arrayLength : Nat} (bytes : 0 < elementSize)
    (tooLong : BackendKind.blockMaximum elementSize < arrayLength) :
    Backend.create (.chain arrayLength) elementSize count system =
      .error (.refused (.invalidConfig
        (.arraysTooLong arrayLength (BackendKind.blockMaximum elementSize)))) := by
  have refused : (Chain.create elementSize arrayLength count system : Except _ (Chain Heap)) =
      .error (.refused (.invalidConfig
        (.arraysTooLong arrayLength (BackendKind.blockMaximum elementSize)))) :=
    Chain.createBounded_tooLong bytes (by decide) tooLong
  rw [Backend.create, refused]
  rfl

theorem create_beyond (bytes : 0 < elementSize) (fits : kind.Fits elementSize)
    (beyond : kind.maximum elementSize < count) :
    Backend.create kind elementSize count system =
      .error (.refused (.capacityExceeded count (kind.maximum elementSize))) := by
  have flat (medium : Medium) (many : BackendKind.blockMaximum elementSize < count) :
      (Flat.create elementSize count (system.mapper 0) : Except _ (Flat medium)) =
        .error (.refused (.capacityExceeded count (BackendKind.blockMaximum elementSize))) :=
    Flat.createBounded_beyond bytes many
  cases kind with
  | heap =>
      rw [Backend.create, flat .heap beyond]
      rfl
  | mapped =>
      rw [Backend.create, flat .mapped beyond]
      rfl
  | chain arrayLength =>
      have refused :
          (Chain.create elementSize arrayLength count system : Except _ (Chain Heap)) =
            .error (.refused (.capacityExceeded count
              (BackendKind.maximum elementSize (.chain arrayLength)))) :=
        Chain.createBounded_beyond bytes fits.1 (by decide) fits.2 beyond
      rw [Backend.create, refused]
      rfl

theorem exists_create (served : system.Serves kind.medium) (bytes : 0 < elementSize)
    (fits : kind.Fits elementSize) (within : count ≤ kind.maximum elementSize) :
    ∃ backend, Backend.create kind elementSize count system = .ok backend := by
  have flat (medium : Medium) (served : system.Serves medium)
      (few : count ≤ BackendKind.blockMaximum elementSize) :
      ∃ store : Flat medium, Flat.create elementSize count (system.mapper 0) = .ok store := by
    have bounded : count * elementSize ≤ Store.defaultMaxBytes :=
      (Nat.le_div_iff_mul_le bytes).mp few
    exact Flat.exists_createBounded bytes bounded (served 0 _ bounded)
  cases kind with
  | heap =>
      obtain ⟨store, opened⟩ := flat .heap served within
      exact ⟨.heap store, by rw [Backend.create, opened]; rfl⟩
  | mapped =>
      obtain ⟨store, opened⟩ := flat .mapped served within
      exact ⟨.mapped store, by rw [Backend.create, opened]; rfl⟩
  | chain arrayLength =>
      obtain ⟨chain, opened⟩ : ∃ chain : Chain Heap,
          Chain.create elementSize arrayLength count system = .ok chain :=
        Chain.exists_createBounded served bytes fits.1 (by decide) fits.2 within
      exact ⟨.chain chain, by rw [Backend.create, opened]; rfl⟩

/-- Within the limits of its kind a store is opened, unless the region for it is not mapped. -/
theorem create_within (system : System) (bytes : 0 < elementSize) (fits : kind.Fits elementSize)
    (within : count ≤ kind.maximum elementSize) :
    (∃ backend, Backend.create kind elementSize count system = .ok backend) ∨
      Backend.create kind elementSize count system = .error (.refused .mapFailed) := by
  cases kind with
  | heap => exact .inl (exists_create system.serves_heap bytes fits within)
  | chain arrayLength => exact .inl (exists_create system.serves_heap bytes fits within)
  | mapped =>
      have bounded : count * elementSize ≤ Store.defaultMaxBytes :=
        (Nat.le_div_iff_mul_le bytes).mp within
      rcases Flat.createBounded_mapped bytes bounded (Nat.lt_of_le_of_lt bounded (by decide)) with
        ⟨store, opened⟩ | refused
      · have created : Flat.create elementSize count (system.mapper 0) = .ok store := opened
        exact .inl ⟨.mapped store, by rw [Backend.create, created]; rfl⟩
      · have unmapped : (Flat.create elementSize count (system.mapper 0) : Except _ Mapped) =
            .error (.refused .mapFailed) := refused
        exact .inr (by rw [Backend.create, unmapped]; rfl)

end Backend

end RecordPool
