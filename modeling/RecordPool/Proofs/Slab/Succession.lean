import RecordPool.Proofs.Slab.Account

/-!
# Slabs that follow from others

Whatever is asked of a slab, its store keeps its element size and its bounds and loses no
element.  An index comes from the free list or from the high-water mark, where the store
may first have grown; an allocation that fails leaves the store as large as it was.
-/

namespace RecordPool.Slab

open LawfulStore

variable {σ : Type} [Store σ] [LawfulStore σ] {slab : Slab σ} {live : Finset Nat}

/-- What a slab keeps of the one from which it follows. -/
structure Continues (before after : Slab σ) : Prop where
  sound : Sound after.store
  elementSize_eq : Elements.elementSize after.store = Elements.elementSize before.store
  maxSize_eq : Store.maxSize after.store = Store.maxSize before.store
  affords_iff : ∀ count, Affords after.store count ↔ Affords before.store count
  policy_eq : after.policy = before.policy
  capacity_le : before.capacity ≤ after.capacity

namespace Continues

variable {first second third : Slab σ}

/-- Only the store counts. -/
theorem of_store_eq (sound : Sound first.store) (store : second.store = first.store)
    (policy : second.policy = first.policy) : Continues first second where
  sound := by rwa [store]
  elementSize_eq := by rw [store]
  maxSize_eq := by rw [store]
  affords_iff count := by rw [store]
  policy_eq := policy
  capacity_le := by
    unfold capacity
    rw [store]

theorem refl (sound : Sound first.store) : Continues first first :=
  of_store_eq sound rfl rfl

theorem trans (before : Continues first second) (after : Continues second third) :
    Continues first third where
  sound := after.sound
  elementSize_eq := after.elementSize_eq.trans before.elementSize_eq
  maxSize_eq := after.maxSize_eq.trans before.maxSize_eq
  affords_iff count := (after.affords_iff count).trans (before.affords_iff count)
  policy_eq := after.policy_eq.trans before.policy_eq
  capacity_le := before.capacity_le.trans after.capacity_le

theorem ample (continues : Continues first second) (memory : Store.Ample first.store) :
    Store.Ample second.store := by
  intro count within
  rw [continues.maxSize_eq] at within
  rw [continues.affords_iff]
  exact memory count within

end Continues

theorem StoreOnly.continues {before after : Slab σ} (storeOnly : StoreOnly before after) :
    Continues before after := by
  have larger := storeOnly.capacity_le
  rcases storeOnly with ⟨store, size, contents, rfl, -, becomes⟩
  exact {
    sound := becomes.sound
    elementSize_eq := becomes.elementSize_eq
    maxSize_eq := becomes.maxSize_eq
    affords_iff := becomes.affords_iff
    policy_eq := rfl
    capacity_le := larger }

/-- How an index is handed out, and what the slab is then. -/
inductive HandsOut (slab : Slab σ) : (index : Nat) → (after : Slab σ) → Prop where
  /-- The index freed last comes again. -/
  | again {index : Nat} {rest : List Nat} (reuses : slab.policy = .reuse)
      (freed : slab.freed = index :: rest) : HandsOut slab index (slab.handOutAgain index rest)
  /-- The index at the high-water mark comes next, after growth if there is no room. -/
  | next {store : σ} (unfreed : slab.policy = .appendOnly ∨ slab.freed = [])
      (room : slab.highWater < sizeAfterAppend slab)
      (becomes : Store.Becomes Sound Affords slab.store store (sizeAfterAppend slab)
        (Elements.contents slab.store)) :
      HandsOut slab slab.highWater (slab.withStore store).handOutNext

/-- An append hands out the index at the high-water mark, for which it grows the store if that is
full, and leaves its size if that fails. -/
theorem append_outcome (orderly : slab.Orderly live) :
    match append slab with
    | .ok index after => index = slab.highWater ∧ slab.highWater < sizeAfterAppend slab ∧
        ∃ store, after = (slab.withStore store).handOutNext ∧
          Store.Becomes Sound Affords slab.store store (sizeAfterAppend slab)
            (Elements.contents slab.store)
    | .error _ after => ElementsOnly slab after := by
  by_cases full : slab.highWater = slab.capacity
  · by_cases maximal : Store.maxSize slab.store < slab.highWater + 1
    · rw [append_of_maximal full maximal]
      exact ElementsOnly.refl orderly.sound
    · have enough : slab.highWater < grownSize slab.store (slab.highWater + 1) :=
        le_grownSize (Nat.le_of_not_lt maximal)
      rw [append_of_full full maximal]
      cases resized :
          Store.resize (grownSize slab.store (slab.highWater + 1)) slab.store with
      | error failure left =>
          exact ElementsOnly.of_becomes (resize_error orderly.sound resized)
      | ok _ grown =>
          have becomes := resize_ok orderly.sound resized
          have larger : Elements.size slab.store ≤
              grownSize slab.store (slab.highWater + 1) := by
            apply Nat.le_of_lt
            rw [full] at enough ⊢
            exact enough
          rw [Nat.max_eq_right larger] at becomes
          have size : sizeAfterAppend slab = grownSize slab.store (slab.highWater + 1) :=
            if_pos full
          rw [← size] at enough becomes
          exact ⟨rfl, enough, grown, rfl, becomes⟩
  · have size : sizeAfterAppend slab = slab.capacity := if_neg full
    have becomes := becomes_self orderly.sound
    change Store.Becomes Sound Affords slab.store slab.store slab.capacity _ at becomes
    rw [← size] at becomes
    rw [append_of_room full]
    refine ⟨rfl, ?_, slab.store, rfl, becomes⟩
    rw [size]
    exact Nat.lt_of_le_of_ne orderly.highWater_le full

/-- Where no freed index waits to be handed out again, an append is how an index is handed out. -/
theorem append_cases (orderly : slab.Orderly live)
    (unfreed : slab.policy = .appendOnly ∨ slab.freed = []) :
    match append slab with
    | .ok index after => HandsOut slab index after
    | .error _ after => ElementsOnly slab after := by
  have outcome := append_outcome orderly
  cases appended : append slab with
  | error failure left =>
      rw [appended] at outcome
      exact outcome
  | ok index after =>
      rw [appended] at outcome
      obtain ⟨rfl, room, store, rfl, becomes⟩ := outcome
      exact .next unfreed room becomes

/-- An allocation hands out an index or leaves the size of the store. -/
theorem allocate_cases (orderly : slab.Orderly live) :
    match allocate slab with
    | .ok index after => HandsOut slab index after
    | .error _ after => ElementsOnly slab after := by
  cases policy : slab.policy with
  | appendOnly =>
      rw [allocate_of_appendOnly policy]
      exact append_cases orderly (Or.inl policy)
  | reuse =>
      cases freed : slab.freed with
      | nil =>
          rw [allocate_of_none_freed freed]
          exact append_cases orderly (Or.inr freed)
      | cons index rest =>
          rw [allocate_of_freed policy freed]
          exact .again policy freed

omit [LawfulStore σ] in
theorem capacity_le_sizeAfterAppend (room : slab.highWater < sizeAfterAppend slab) :
    slab.capacity ≤ sizeAfterAppend slab := by
  by_cases full : slab.highWater = slab.capacity
  · exact Nat.le_of_lt (full ▸ room)
  · exact Nat.le_of_eq (if_neg full).symm

omit [LawfulStore σ] in
/-- An append makes room for no more than twice the indices handed out then. -/
theorem sizeAfterAppend_le (slab : Slab σ) :
    sizeAfterAppend slab ≤ max slab.capacity (2 * (slab.highWater + 1)) := by
  unfold sizeAfterAppend grownSize
  by_cases full : slab.highWater = slab.capacity
  · rw [if_pos full, full]
    change min (max (min (max slab.capacity 1 * 2) _) _) _ ≤ _
    omega
  · rw [if_neg full]
    exact Nat.le_max_left _ _

/-- The index handed out was not live before. -/
theorem HandsOut.accounts (account : slab.Accounts live) {index : Nat} {after : Slab σ}
    (handsOut : HandsOut slab index after) :
    index ∉ live ∧ after.Accounts (insert index live) := by
  cases handsOut with
  | again reuses freed =>
      refine ⟨account.not_live_of_freed index ?_, account.handOutAgain freed⟩
      rw [freed]
      exact List.mem_cons_self
  | next unfreed room becomes =>
      exact ⟨account.highWater_not_live, (account.withStore _).handOutNext⟩

/-- An index at the high-water mark is handed out after growth, which loses no element. -/
theorem continues_handOutNext {store : σ} (room : slab.highWater < sizeAfterAppend slab)
    (becomes : Store.Becomes Sound Affords slab.store store (sizeAfterAppend slab)
      (Elements.contents slab.store)) :
    Continues slab (slab.withStore store).handOutNext := by
  have grown : StoreOnly slab (slab.withStore store) :=
    StoreOnly.of_becomes (capacity_le_sizeAfterAppend room) becomes
  exact grown.continues.trans (Continues.of_store_eq grown.sound rfl rfl)

theorem HandsOut.continues (sound : Sound slab.store) {index : Nat} {after : Slab σ}
    (handsOut : HandsOut slab index after) : Continues slab after := by
  cases handsOut with
  | again reuses freed => exact Continues.of_store_eq sound rfl rfl
  | next unfreed room becomes => exact continues_handOutNext room becomes

theorem continues_takeBack (sound : Sound slab.store) (index : Nat) :
    Continues slab (slab.takeBack index) :=
  Continues.of_store_eq sound rfl rfl

theorem continues_clear (sound : Sound slab.store) : Continues slab slab.clear :=
  Continues.of_store_eq sound rfl rfl

end RecordPool.Slab
