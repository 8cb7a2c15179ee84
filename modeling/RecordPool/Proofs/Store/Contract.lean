import RecordPool.Proofs.Computation
import RecordPool.Store.Basic
import Mathlib.Logic.Equiv.Basic

/-!
# What stores promise

A store is seen through its size and the contents of its elements, where an element
that is not there counts as zero.  In these terms growing a store changes no contents
at all, and a write changes those of one element.  `LawfulStore` collects what the
users of a store rely on; what follows for typed reads, edits and copies is derived
from it once for all stores.
-/

namespace RecordPool

/-- The contents of an element, zero where there is none. -/
def Elements.contents {σ : Type} [Elements σ] (store : σ) (index : Nat) : Buffer :=
  match Elements.element store index with
  | .ok contents => contents
  | .error _ => Buffer.zeros (Elements.elementSize store)

/-- A change of a store after which it has the given size and contents.  Its element
size and its bounds stay. -/
structure Store.Becomes {σ : Type} [Store σ] (Sound : σ → Prop) (Affords : σ → Nat → Prop)
    (before after : σ) (size : Nat) (contents : Nat → Buffer) : Prop where
  sound : Sound after
  elementSize_eq : Elements.elementSize after = Elements.elementSize before
  maxSize_eq : Store.maxSize after = Store.maxSize before
  affords_iff : ∀ count, Affords after count ↔ Affords before count
  size_eq : Elements.size after = size
  contents_eq : ∀ index, Elements.contents after index = contents index

/-- What the users of a store rely on. -/
class LawfulStore (σ : Type) [Store σ] where
  /-- The states that a store can be in. -/
  Sound : σ → Prop
  /-- Whether there is memory for a number of elements. -/
  Affords : σ → Nat → Prop
  elementSize_pos : ∀ {store : σ}, Sound store → 0 < Elements.elementSize store
  size_le_maxSize : ∀ {store : σ}, Sound store → Elements.size store ≤ Store.maxSize store
  /-- Exactly the elements below the size are there. -/
  element_eq : ∀ {store : σ}, Sound store → ∀ index,
    Elements.element store index =
      if index < Elements.size store then
        .ok (Elements.contents store index)
      else
        .error (.elementOutOfBounds index (Elements.size store))
  size_contents : ∀ {store : σ}, Sound store → ∀ index,
    (Elements.contents store index).size = Elements.elementSize store
  /-- A store does not shrink. -/
  resize_within : ∀ {store : σ} {count : Nat}, Sound store → count ≤ Elements.size store →
    Store.resize count store = .ok () store
  /-- A store does not grow past its maximum. -/
  resize_beyond : ∀ {store : σ} {count : Nat}, Sound store → Store.maxSize store < count →
    Store.resize count store =
      .error (.refused (.capacityExceeded count (Store.maxSize store))) store
  resize_affordable : ∀ {store : σ} {count : Nat}, Sound store →
    count ≤ Store.maxSize store → Affords store count →
    ∃ grown, Store.resize count store = .ok () grown
  /-- Growth keeps all contents, and new elements are zero. -/
  resize_ok : ∀ {store grown : σ} {count : Nat}, Sound store →
    Store.resize count store = .ok () grown →
    Store.Becomes Sound Affords store grown (max (Elements.size store) count)
      (Elements.contents store)
  /-- A store that does not grow keeps its size and all contents. -/
  resize_error : ∀ {store left : σ} {count : Nat} {failure : Failure Store.Error},
    Sound store → Store.resize count store = .error failure left →
    Store.Becomes Sound Affords store left (Elements.size store) (Elements.contents store)
  overwrite_inside : ∀ {store : σ} {index : Nat} {contents : Buffer}, Sound store →
    index < Elements.size store → contents.size = Elements.elementSize store →
    ∃ after, Elements.overwrite index contents store = .ok () after ∧
      Store.Becomes Sound Affords store after (Elements.size store)
        (Function.update (Elements.contents store) index contents)
  overwrite_outside : ∀ {store : σ} {index : Nat} {contents : Buffer}, Sound store →
    Elements.size store ≤ index →
    Elements.overwrite index contents store =
      .error (.elementOutOfBounds index (Elements.size store)) store
  swap_self : ∀ {store : σ} {index : Nat}, Store.swap index index store = .ok () store
  swap_inside : ∀ {store : σ} {left right : Nat}, Sound store → left ≠ right →
    left < Elements.size store → right < Elements.size store →
    ∃ after, Store.swap left right store = .ok () after ∧
      Store.Becomes Sound Affords store after (Elements.size store)
        (Elements.contents store ∘ Equiv.swap left right)
  swap_outside : ∀ {store : σ} {left right : Nat}, Sound store → left ≠ right →
    ¬ (left < Elements.size store ∧ right < Elements.size store) →
    ∃ fault, Store.swap left right store = .error fault store

/-- There is memory for as many elements as the store may have. -/
def Store.Ample {σ : Type} [Store σ] [LawfulStore σ] (store : σ) : Prop :=
  ∀ count, count ≤ Store.maxSize store → LawfulStore.Affords store count

/-- A store just opened: it has the size asked for, and its elements are zero. -/
structure Store.Fresh {σ : Type} [Store σ] [LawfulStore σ] (elementSize size : Nat)
    (store : σ) : Prop where
  sound : LawfulStore.Sound store
  elementSize_eq : Elements.elementSize store = elementSize
  size_eq : Elements.size store = size
  contents_eq : ∀ index, Elements.contents store index = Buffer.zeros elementSize

/-- A store that chains can rely on: those opened are new, and no smaller than they were
promised to be. -/
class LawfulSubStore (σ : Type) [SubStore σ] extends LawfulStore σ where
  /-- Whether stores of elements of a size can always be opened with, and grown to, a number
  of elements. -/
  Supplies : (system : System) → (elementSize count : Nat) → Prop
  allocate_ok : ∀ {system : System} {attempt elementSize count : Nat} {store : σ},
    SubStore.allocate system attempt elementSize count = .ok store →
    Store.Fresh elementSize count store
  allocate_bound : ∀ {system : System} {attempt elementSize count more : Nat} {store : σ},
    SubStore.allocate system attempt elementSize count = .ok store →
    Supplies system elementSize more → more ≤ Store.maxSize store ∧ Affords store more
  allocate_supplied : ∀ {system : System} {attempt elementSize count : Nat},
    Supplies system elementSize count →
    ∃ store : σ, SubStore.allocate system attempt elementSize count = .ok store

namespace Store.Becomes

variable {σ : Type} [Store σ] {Sound : σ → Prop} {Affords : σ → Nat → Prop}
  {first second third : σ} {size size' : Nat} {contents contents' : Nat → Buffer}

/-- One change after another. -/
theorem trans (before : Store.Becomes Sound Affords first second size contents)
    (after : Store.Becomes Sound Affords second third size' contents') :
    Store.Becomes Sound Affords first third size' contents' where
  sound := after.sound
  elementSize_eq := after.elementSize_eq.trans before.elementSize_eq
  maxSize_eq := after.maxSize_eq.trans before.maxSize_eq
  affords_iff count := (after.affords_iff count).trans (before.affords_iff count)
  size_eq := after.size_eq
  contents_eq := after.contents_eq

theorem ample [LawfulStore σ]
    (becomes : Store.Becomes LawfulStore.Sound LawfulStore.Affords first second size contents)
    (memory : Store.Ample first) : Store.Ample second := by
  intro count within
  rw [becomes.maxSize_eq] at within
  rw [becomes.affords_iff]
  exact memory count within

end Store.Becomes

end RecordPool
