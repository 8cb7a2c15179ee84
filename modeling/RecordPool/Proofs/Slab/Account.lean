import RecordPool.Proofs.IndexSet.Members
import RecordPool.Proofs.Slab.Operations
import RecordPool.Proofs.Store.Elements
import Mathlib.Tactic.Tauto

/-!
# The account of indices

The live and the freed indices of a slab share out the indices below the high-water mark,
and no index is on the free list twice.  This is what makes an index that is handed out one
that nobody holds.  Every operation keeps the account, whatever the policy is and whatever
the store does to refuse or fail.
-/

namespace RecordPool.Slab

variable {σ : Type}

/-- The live indices of a slab are the given ones, and with the freed ones they share out
the indices below the high-water mark. -/
structure Accounts (slab : Slab σ) (live : Finset Nat) : Prop where
  represents : slab.live.Represents live
  freed_nodup : slab.freed.Nodup
  not_live_of_freed : ∀ index, index ∈ slab.freed → index ∉ live
  lt_highWater_iff : ∀ index, index < slab.highWater ↔ index ∈ live ∨ index ∈ slab.freed

namespace Accounts

variable {slab : Slab σ} {live : Finset Nat}

theorem create (store : σ) (policy : ReusePolicy) : Accounts (Slab.create store policy) ∅ where
  represents := IndexSet.Represents.empty
  freed_nodup := List.nodup_nil
  not_live_of_freed index freed := absurd freed List.not_mem_nil
  lt_highWater_iff index := by simp [Slab.create]

/-- The store has no part in the account. -/
theorem withStore (account : slab.Accounts live) (store : σ) :
    (slab.withStore store).Accounts live where
  represents := account.represents
  freed_nodup := account.freed_nodup
  not_live_of_freed := account.not_live_of_freed
  lt_highWater_iff := account.lt_highWater_iff

theorem isLive_eq (account : slab.Accounts live) (index : Nat) :
    slab.isLive index = decide (index ∈ live) :=
  account.represents.contains_eq index

theorem highWater_not_live (account : slab.Accounts live) : slab.highWater ∉ live := by
  intro isLive
  exact Nat.lt_irrefl _ ((account.lt_highWater_iff _).mpr (Or.inl isLive))

theorem highWater_not_freed (account : slab.Accounts live) : slab.highWater ∉ slab.freed := by
  intro freed
  exact Nat.lt_irrefl _ ((account.lt_highWater_iff _).mpr (Or.inr freed))

theorem handOutNext (account : slab.Accounts live) :
    slab.handOutNext.Accounts (insert slab.highWater live) where
  represents := account.represents.insert slab.highWater
  freed_nodup := account.freed_nodup
  not_live_of_freed index freed isLive := by
    rcases Finset.mem_insert.mp isLive with rfl | already
    · exact account.highWater_not_freed freed
    · exact account.not_live_of_freed index freed already
  lt_highWater_iff index := by
    change index < slab.highWater + 1 ↔ index ∈ insert slab.highWater live ∨ index ∈ slab.freed
    rw [Nat.lt_succ_iff_lt_or_eq, account.lt_highWater_iff, Finset.mem_insert]
    tauto

theorem handOutAgain (account : slab.Accounts live) {index : Nat} {rest : List Nat}
    (freed : slab.freed = index :: rest) :
    (slab.handOutAgain index rest).Accounts (insert index live) where
  represents := account.represents.insert index
  freed_nodup := by
    have nodup := account.freed_nodup
    rw [freed] at nodup
    exact nodup.of_cons
  not_live_of_freed other stillFreed isLive := by
    have nodup := account.freed_nodup
    rw [freed] at nodup
    rcases Finset.mem_insert.mp isLive with rfl | already
    · exact (List.nodup_cons.mp nodup).1 stillFreed
    · apply account.not_live_of_freed other _ already
      rw [freed]
      exact List.mem_cons_of_mem index stillFreed
  lt_highWater_iff other := by
    change other < slab.highWater ↔ other ∈ insert index live ∨ other ∈ rest
    rw [account.lt_highWater_iff, freed, Finset.mem_insert, List.mem_cons]
    tauto

theorem takeBack (account : slab.Accounts live) {index : Nat} (isLive : index ∈ live) :
    (slab.takeBack index).Accounts (live.erase index) where
  represents := account.represents.erase index
  freed_nodup :=
    List.nodup_cons.mpr ⟨fun freed => account.not_live_of_freed index freed isLive,
      account.freed_nodup⟩
  not_live_of_freed other freed stillLive := by
    rcases List.mem_cons.mp freed with rfl | before
    · exact Finset.notMem_erase other live stillLive
    · exact account.not_live_of_freed other before (Finset.mem_of_mem_erase stillLive)
  lt_highWater_iff other := by
    change other < slab.highWater ↔ other ∈ live.erase index ∨ other ∈ index :: slab.freed
    rw [account.lt_highWater_iff, Finset.mem_erase, List.mem_cons]
    by_cases same : other = index
    · subst same
      tauto
    · tauto

theorem clear (slab : Slab σ) : slab.clear.Accounts ∅ where
  represents := IndexSet.Represents.clear slab.live
  freed_nodup := List.nodup_nil
  not_live_of_freed index freed := absurd freed List.not_mem_nil
  lt_highWater_iff index := by simp [Slab.clear]

/-- Live and freed indices are as many as the high-water mark says. -/
theorem liveCount_add_freeCount (account : slab.Accounts live) :
    slab.liveCount + slab.freeCount = slab.highWater := by
  have together : live ∪ slab.freed.toFinset = Finset.range slab.highWater := by
    ext index
    rw [Finset.mem_union, List.mem_toFinset, Finset.mem_range]
    exact (account.lt_highWater_iff index).symm
  have apart : Disjoint live slab.freed.toFinset := by
    rw [Finset.disjoint_right]
    intro index freed
    exact account.not_live_of_freed index (List.mem_toFinset.mp freed)
  calc
    slab.liveCount + slab.freeCount
        = live.card + slab.freed.toFinset.card := by
          rw [List.toFinset_card_of_nodup account.freed_nodup]
          exact congrArg (· + slab.freed.length) account.represents.count_eq
    _ = (live ∪ slab.freed.toFinset).card := (Finset.card_union_of_disjoint apart).symm
    _ = slab.highWater := by rw [together, Finset.card_range]

end Accounts

/-! ## Orderly slabs -/

section Orderly

variable [Store σ] [LawfulStore σ] {slab : Slab σ} {live : Finset Nat}

open LawfulStore

/-- A slab whose store is sound and has the elements of all indices handed out. -/
structure Orderly (slab : Slab σ) (live : Finset Nat) : Prop where
  account : slab.Accounts live
  sound : Sound slab.store
  highWater_le : slab.highWater ≤ slab.capacity

omit [LawfulStore σ] in
/-- A slab grows at least as far as it has to. -/
theorem le_grownSize {store : σ} {required : Nat} (bounded : required ≤ Store.maxSize store) :
    required ≤ grownSize store required := by
  unfold grownSize
  exact Nat.le_min.mpr ⟨Nat.le_max_right _ _, bounded⟩

/-- A slab that follows from another by a use of the store alone, in which no element was
lost. -/
def StoreOnly (before after : Slab σ) : Prop :=
  ∃ store size contents, after = before.withStore store ∧ before.capacity ≤ size ∧
    Store.Becomes Sound Affords before.store store size contents

namespace StoreOnly

variable {first second third : Slab σ}

theorem of_becomes {store : σ} {size : Nat} {contents : Nat → Buffer}
    (larger : first.capacity ≤ size)
    (becomes : Store.Becomes Sound Affords first.store store size contents) :
    StoreOnly first (first.withStore store) :=
  ⟨store, size, contents, rfl, larger, becomes⟩

theorem refl (sound : Sound first.store) : StoreOnly first first :=
  of_becomes (Nat.le_refl _) (becomes_self sound)

theorem sound (storeOnly : StoreOnly first second) : Sound second.store := by
  rcases storeOnly with ⟨_, _, _, rfl, _, becomes⟩
  exact becomes.sound

theorem capacity_le (storeOnly : StoreOnly first second) :
    first.capacity ≤ second.capacity := by
  rcases storeOnly with ⟨_, _, _, rfl, larger, becomes⟩
  rw [← becomes.size_eq] at larger
  exact larger

theorem version_eq (storeOnly : StoreOnly first second) : second.version = first.version := by
  rcases storeOnly with ⟨_, _, _, rfl, _, _⟩
  rfl

theorem live_eq (storeOnly : StoreOnly first second) : second.live = first.live := by
  rcases storeOnly with ⟨_, _, _, rfl, _, _⟩
  rfl

theorem highWater_eq (storeOnly : StoreOnly first second) :
    second.highWater = first.highWater := by
  rcases storeOnly with ⟨_, _, _, rfl, _, _⟩
  rfl

theorem freed_eq (storeOnly : StoreOnly first second) : second.freed = first.freed := by
  rcases storeOnly with ⟨_, _, _, rfl, _, _⟩
  rfl

end StoreOnly

/-- A slab that follows from another by a use of the elements alone, which stay as many. -/
def ElementsOnly (before after : Slab σ) : Prop :=
  ∃ store contents, after = before.withStore store ∧
    Store.Becomes Sound Affords before.store store before.capacity contents

namespace ElementsOnly

variable {first second third : Slab σ}

theorem of_becomes {store : σ} {contents : Nat → Buffer}
    (becomes : Store.Becomes Sound Affords first.store store first.capacity contents) :
    ElementsOnly first (first.withStore store) :=
  ⟨store, contents, rfl, becomes⟩

theorem refl (sound : Sound first.store) : ElementsOnly first first :=
  of_becomes (becomes_self sound)

theorem capacity_eq (elementsOnly : ElementsOnly first second) :
    second.capacity = first.capacity := by
  rcases elementsOnly with ⟨_, _, rfl, becomes⟩
  exact becomes.size_eq

theorem storeOnly (elementsOnly : ElementsOnly first second) : StoreOnly first second := by
  rcases elementsOnly with ⟨_, _, rfl, becomes⟩
  exact StoreOnly.of_becomes (Nat.le_refl _) becomes

theorem trans (before : ElementsOnly first second) (after : ElementsOnly second third) :
    ElementsOnly first third := by
  have capacity := before.capacity_eq
  rcases before with ⟨middle, _, rfl, becomes⟩
  rcases after with ⟨final, contents, rfl, becomesNext⟩
  rw [capacity] at becomesNext
  exact ⟨final, contents, rfl, becomes.trans becomesNext⟩

end ElementsOnly

namespace Orderly

theorem storeOnly (orderly : slab.Orderly live) {after : Slab σ}
    (storeOnly : StoreOnly slab after) : after.Orderly live := by
  rcases storeOnly with ⟨store, size, contents, rfl, larger, becomes⟩
  constructor
  · exact orderly.account.withStore store
  · exact becomes.sound
  · apply Nat.le_trans orderly.highWater_le
    change slab.capacity ≤ Elements.size store
    rw [becomes.size_eq]
    exact larger

theorem handOutNext (orderly : slab.Orderly live) (room : slab.highWater < slab.capacity) :
    slab.handOutNext.Orderly (insert slab.highWater live) where
  account := orderly.account.handOutNext
  sound := orderly.sound
  highWater_le := room

/-- An index that is handed out was not live, and becomes the only one that is new. -/
theorem append (orderly : slab.Orderly live) :
    match append slab with
    | .ok index after =>
        index ∉ live ∧ after.version = slab.version + 1 ∧ after.Orderly (insert index live)
    | .error _ after => StoreOnly slab after := by
  by_cases full : slab.highWater = slab.capacity
  · by_cases maximal : Store.maxSize slab.store < slab.highWater + 1
    · rw [append_of_maximal full maximal]
      exact StoreOnly.refl orderly.sound
    · have enough := le_grownSize (Nat.le_of_not_lt maximal)
      rw [append_of_full full maximal]
      cases resized :
          Store.resize (grownSize slab.store (slab.highWater + 1)) slab.store with
      | ok _ grown =>
          have becomes := resize_ok orderly.sound resized
          have afterGrowth :=
            orderly.storeOnly (StoreOnly.of_becomes (Nat.le_max_left _ _) becomes)
          have room : (slab.withStore grown).highWater < (slab.withStore grown).capacity := by
            change slab.highWater < Elements.size grown
            rw [becomes.size_eq]
            exact Nat.lt_of_lt_of_le enough (Nat.le_max_right _ _)
          exact ⟨orderly.account.highWater_not_live, rfl, afterGrowth.handOutNext room⟩
      | error failure left =>
          exact StoreOnly.of_becomes (Nat.le_refl _) (resize_error orderly.sound resized)
  · rw [append_of_room full]
    exact ⟨orderly.account.highWater_not_live, rfl,
      orderly.handOutNext (Nat.lt_of_le_of_ne orderly.highWater_le full)⟩

theorem allocate (orderly : slab.Orderly live) :
    match allocate slab with
    | .ok index after =>
        index ∉ live ∧ after.version = slab.version + 1 ∧ after.Orderly (insert index live)
    | .error _ after => StoreOnly slab after := by
  cases policy : slab.policy with
  | appendOnly =>
      rw [allocate_of_appendOnly policy]
      exact orderly.append
  | reuse =>
      cases freed : slab.freed with
      | nil =>
          rw [allocate_of_none_freed freed]
          exact orderly.append
      | cons index rest =>
          rw [allocate_of_freed policy freed]
          refine ⟨?_, rfl,
            ⟨orderly.account.handOutAgain freed, orderly.sound, orderly.highWater_le⟩⟩
          apply orderly.account.not_live_of_freed
          rw [freed]
          exact List.mem_cons_self

/-- The elements of live indices are there. -/
theorem lt_capacity (orderly : slab.Orderly live) {index : Nat} (isLive : index ∈ live) :
    index < slab.capacity :=
  Nat.lt_of_lt_of_le ((orderly.account.lt_highWater_iff index).mpr (Or.inl isLive))
    orderly.highWater_le

theorem takeBack (orderly : slab.Orderly live) {index : Nat} (isLive : index ∈ live) :
    (slab.takeBack index).Orderly (live.erase index) where
  account := orderly.account.takeBack isLive
  sound := orderly.sound
  highWater_le := orderly.highWater_le

theorem clear (orderly : slab.Orderly live) : slab.clear.Orderly ∅ where
  account := Accounts.clear slab
  sound := orderly.sound
  highWater_le := Nat.zero_le _

end Orderly

/-- An index is handed out with what its element held. -/
theorem contents_append (sound : Sound slab.store) {index : Nat} {after : Slab σ}
    (handedOut : append slab = .ok index after) :
    Elements.contents after.store = Elements.contents slab.store := by
  by_cases full : slab.highWater = slab.capacity
  · by_cases maximal : Store.maxSize slab.store < slab.highWater + 1
    · rw [append_of_maximal full maximal] at handedOut
      cases handedOut
    · rw [append_of_full full maximal] at handedOut
      cases resized : Store.resize (grownSize slab.store (slab.highWater + 1)) slab.store with
      | error failure left =>
          rw [resized] at handedOut
          cases handedOut
      | ok _ grown =>
          rw [resized] at handedOut
          cases handedOut
          exact funext (resize_ok sound resized).contents_eq
  · rw [append_of_room full] at handedOut
    cases handedOut
    rfl

theorem contents_allocate (sound : Sound slab.store) {index : Nat} {after : Slab σ}
    (handedOut : allocate slab = .ok index after) :
    Elements.contents after.store = Elements.contents slab.store := by
  cases policy : slab.policy with
  | appendOnly =>
      rw [allocate_of_appendOnly policy] at handedOut
      exact contents_append sound handedOut
  | reuse =>
      cases freed : slab.freed with
      | nil =>
          rw [allocate_of_none_freed freed] at handedOut
          exact contents_append sound handedOut
      | cons index rest =>
          rw [allocate_of_freed policy freed] at handedOut
          cases handedOut
          rfl

theorem swap_elementsOnly (sound : Sound slab.store) (left right : Nat) :
    ElementsOnly slab (stateLeft (swap left right slab)) := by
  by_cases leftKnown : left < slab.highWater
  · by_cases rightKnown : right < slab.highWater
    · rcases swap_becomes sound left right with ⟨contents, becomes⟩
      rw [swap_of_known leftKnown rightKnown]
      cases exchanged : Store.swap left right slab.store with
      | ok _ after =>
          rw [exchanged] at becomes
          exact ElementsOnly.of_becomes becomes
      | error fault after =>
          rw [exchanged] at becomes
          exact ElementsOnly.of_becomes becomes
    · rw [swap_of_right_unknown leftKnown (Nat.le_of_not_lt rightKnown)]
      exact ElementsOnly.refl sound
  · rw [swap_of_left_unknown (Nat.le_of_not_lt leftKnown)]
    exact ElementsOnly.refl sound

theorem reserve_storeOnly (sound : Sound slab.store) (count : Nat) :
    StoreOnly slab (stateLeft (reserve count slab)) := by
  by_cases room : count ≤ slab.capacity
  · rw [reserve_of_room room]
    exact StoreOnly.refl sound
  · rcases resize_becomes sound count with ⟨size, larger, becomes⟩
    rw [reserve_of_no_room room]
    cases resized : Store.resize count slab.store with
    | ok _ grown =>
        rw [resized] at becomes
        exact StoreOnly.of_becomes larger becomes
    | error failure left =>
        rw [resized] at becomes
        exact StoreOnly.of_becomes larger becomes

end Orderly

section Memory

variable [Store σ] [LawfulStore σ] {slab : Slab σ} {live : Finset Nat}

open LawfulStore

/-- The size that the store of a slab has after an append. -/
def sizeAfterAppend (slab : Slab σ) : Nat :=
  if slab.highWater = slab.capacity then
    grownSize slab.store (slab.highWater + 1)
  else
    slab.capacity

theorem append_of_exhausted (orderly : slab.Orderly live)
    (exhausted : slab.highWater = Store.maxSize slab.store) :
    append slab =
      .error (.refused (.capacityExceeded (slab.highWater + 1) (Store.maxSize slab.store)))
        slab := by
  apply append_of_maximal
  · apply Nat.le_antisymm orderly.highWater_le
    rw [exhausted]
    exact size_le_maxSize orderly.sound
  · rw [exhausted]
    exact Nat.lt_succ_self _

/-- With memory at hand only a slab that is exhausted refuses. -/
theorem append_of_not_exhausted (orderly : slab.Orderly live) (ample : Store.Ample slab.store)
    (notExhausted : slab.highWater ≠ Store.maxSize slab.store) :
    ∃ store, append slab = .ok slab.highWater (slab.withStore store).handOutNext ∧
      slab.capacity ≤ sizeAfterAppend slab ∧ slab.highWater < sizeAfterAppend slab ∧
      Store.Becomes Sound Affords slab.store store (sizeAfterAppend slab)
        (Elements.contents slab.store) := by
  have bounded : slab.highWater + 1 ≤ Store.maxSize slab.store := by
    apply Nat.lt_of_le_of_ne _ notExhausted
    exact Nat.le_trans orderly.highWater_le (size_le_maxSize orderly.sound)
  unfold sizeAfterAppend
  by_cases full : slab.highWater = slab.capacity
  · have enough : slab.highWater < grownSize slab.store (slab.highWater + 1) :=
      le_grownSize bounded
    have within : grownSize slab.store (slab.highWater + 1) ≤ Store.maxSize slab.store :=
      Nat.min_le_right _ _
    have larger : Elements.size slab.store ≤
        grownSize slab.store (slab.highWater + 1) := by
      apply Nat.le_of_lt
      rw [full] at enough ⊢
      exact enough
    rcases resize_affordable orderly.sound within (ample _ within) with ⟨grown, resized⟩
    have becomes := resize_ok orderly.sound resized
    rw [Nat.max_eq_right larger] at becomes
    rw [if_pos full, append_of_full full (Nat.not_lt.mpr bounded), resized]
    exact ⟨grown, rfl, larger, enough, becomes⟩
  · rw [if_neg full, append_of_room full]
    exact ⟨slab.store, rfl, Nat.le_refl _, Nat.lt_of_le_of_ne orderly.highWater_le full,
      becomes_self orderly.sound⟩

end Memory

end RecordPool.Slab
