import RecordPool.Proofs.Slab.Partition
import RecordPool.Proofs.Slab.Succession

/-!
# Slabs that run out

With memory at hand a slab refuses to hand out an index only if every index that its store can
have was handed out, and none of them may be handed out again.  Growth to twice the size is cut to
the maximum, which leaves room for the index that it is made for.  From then on there are as many
indices to be had as were freed.
-/

namespace RecordPool.Slab

open LawfulStore

variable {σ : Type} [Store σ]

/-- All indices that the store can have elements for were handed out. -/
def IsExhausted (slab : Slab σ) : Prop :=
  slab.highWater = Store.maxSize slab.store

/-- The answer of a slab that has no index left. -/
def exhaustion (slab : Slab σ) : Failure Store.Error :=
  .refused (.capacityExceeded (slab.highWater + 1) (Store.maxSize slab.store))

/-- A value brought between two bounds, which have to be in order. -/
def clamp? (value low high : Nat) : Option Nat :=
  if low ≤ high then some (min (max value low) high) else none

/-- Twice the size of a store, an empty one counting as having one element. -/
def doubledSize (store : σ) : Nat :=
  min (max (Elements.size store) 1 * 2) (Address.limit - 1)

theorem clamp?_doubledSize {store : σ} {required : Nat} (bounded : required ≤ Store.maxSize store) :
    clamp? (doubledSize store) required (Store.maxSize store) =
      some (grownSize store required) :=
  if_pos bounded

variable [LawfulStore σ] {slab : Slab σ} {live : Finset Nat}

theorem highWater_le_maxSize (orderly : slab.Orderly live) :
    slab.highWater ≤ Store.maxSize slab.store :=
  Nat.le_trans orderly.highWater_le (size_le_maxSize orderly.sound)

theorem not_isExhausted_iff (orderly : slab.Orderly live) :
    ¬ slab.IsExhausted ↔ slab.highWater < Store.maxSize slab.store :=
  ⟨Nat.lt_of_le_of_ne (highWater_le_maxSize orderly), Nat.ne_of_lt⟩

theorem allocate_of_exhausted (orderly : slab.Orderly live) (exhausted : slab.IsExhausted)
    (unfreed : slab.policy = .appendOnly ∨ slab.freed = []) :
    allocate slab = .error slab.exhaustion slab := by
  have refused : append slab = .error slab.exhaustion slab := append_of_exhausted orderly exhausted
  rcases unfreed with policy | freed
  · rwa [allocate_of_appendOnly policy]
  · rwa [allocate_of_none_freed freed]

/-- The indices that were freed are handed out once more, the one freed last first, and after
them nothing. -/
theorem run_allocate_of_exhausted (orderly : slab.Orderly live) (reuses : slab.policy = .reuse)
    (exhausted : slab.IsExhausted) (attempts : Nat) :
    (slab.run (List.replicate attempts .allocate)).1 =
      (slab.freed.take attempts).map (fun index => .ok (.index index)) ++
        List.replicate (attempts - slab.freed.length) (.error slab.exhaustion) := by
  induction attempts generalizing slab live with
  | zero => simp [run]
  | succ attempts ih =>
      cases freed : slab.freed with
      | nil =>
          have refused := allocate_of_exhausted orderly exhausted (Or.inr freed)
          have further := ih orderly reuses exhausted
          rw [freed] at further
          simp only [List.replicate_succ, run, step, refused, answered, further]
          simp [List.replicate_succ]
      | cons index rest =>
          have handedOut := allocate_of_freed reuses freed
          have orderlyAfter := orderly.allocate
          rw [handedOut] at orderlyAfter
          have further := ih orderlyAfter.2.2 reuses exhausted
          simp only [List.replicate_succ, run, step, handedOut, answered, further]
          simp only [handOutAgain, List.take_succ_cons, List.map_cons, List.length_cons,
            Nat.add_sub_add_right, List.cons_append]
          rfl

/-- Whether there is an index to be had: one at the high-water mark, or one that was freed and may
be handed out again. -/
def HasIndex (slab : Slab σ) : Prop :=
  slab.highWater < Store.maxSize slab.store ∨ slab.policy = .reuse ∧ slab.freed ≠ []

/-- What a slab can hand out is bounded by its store alone. -/
structure ExhaustsExactly (slab : Slab σ) : Prop where
  append_iff : (∃ index after, append slab = .ok index after) ↔
    slab.highWater < Store.maxSize slab.store
  append_refused : ¬ slab.highWater < Store.maxSize slab.store →
    append slab = .error slab.exhaustion slab
  allocate_iff : (∃ index after, allocate slab = .ok index after) ↔ slab.HasIndex
  allocate_refused : ¬ slab.HasIndex → allocate slab = .error slab.exhaustion slab
  /-- A full store doubles, as far as its maximum allows; that is never less than what it needs. -/
  grows : slab.highWater = slab.capacity → slab.highWater < Store.maxSize slab.store →
    ∃ after, append slab = .ok slab.highWater after ∧
      clamp? (doubledSize slab.store) (slab.highWater + 1) (Store.maxSize slab.store) =
        some after.capacity
  drains : slab.policy = .reuse → slab.IsExhausted → ∀ attempts,
    (slab.run (List.replicate attempts .allocate)).1 =
      (slab.freed.take attempts).map (fun index => .ok (.index index)) ++
        List.replicate (attempts - slab.freed.length) (.error slab.exhaustion)

theorem exists_append_iff (orderly : slab.Orderly live) (ample : Store.Ample slab.store) :
    (∃ index after, append slab = .ok index after) ↔
      slab.highWater < Store.maxSize slab.store := by
  rw [← not_isExhausted_iff orderly]
  constructor
  · rintro ⟨index, after, done⟩ exhausted
    rw [append_of_exhausted orderly exhausted] at done
    cases done
  · intro notExhausted
    rcases append_of_not_exhausted orderly ample notExhausted with ⟨store, done, -⟩
    exact ⟨_, _, done⟩

theorem exists_allocate_iff (orderly : slab.Orderly live) (ample : Store.Ample slab.store) :
    (∃ index after, allocate slab = .ok index after) ↔ slab.HasIndex := by
  unfold HasIndex
  cases policy : slab.policy with
  | appendOnly =>
      rw [allocate_of_appendOnly policy, exists_append_iff orderly ample]
      simp
  | reuse =>
      cases freed : slab.freed with
      | nil =>
          rw [allocate_of_none_freed freed, exists_append_iff orderly ample]
          simp
      | cons index rest =>
          rw [allocate_of_freed policy freed]
          simp

/-- A full store grows to twice its size, or to its maximum if that is less. -/
theorem append_of_full_growable (orderly : slab.Orderly live) (ample : Store.Ample slab.store)
    (full : slab.highWater = slab.capacity)
    (growable : slab.highWater < Store.maxSize slab.store) :
    ∃ after, append slab = .ok slab.highWater after ∧
      clamp? (doubledSize slab.store) (slab.highWater + 1) (Store.maxSize slab.store) =
        some after.capacity := by
  rcases append_of_not_exhausted orderly ample (Nat.ne_of_lt growable) with
    ⟨store, done, -, -, becomes⟩
  have size : (slab.withStore store).handOutNext.capacity = sizeAfterAppend slab := becomes.size_eq
  rw [sizeAfterAppend, if_pos full] at size
  refine ⟨_, done, ?_⟩
  rw [size]
  exact clamp?_doubledSize growable

theorem exhaustsExactly (orderly : slab.Orderly live) (ample : Store.Ample slab.store) :
    slab.ExhaustsExactly where
  append_iff := exists_append_iff orderly ample
  append_refused noneLeft := by
    apply append_of_exhausted orderly
    by_contra notExhausted
    exact noneLeft ((not_isExhausted_iff orderly).mp notExhausted)
  allocate_iff := exists_allocate_iff orderly ample
  allocate_refused noneLeft := by
    rw [HasIndex, not_or, not_and_or] at noneLeft
    obtain ⟨noRoom, unfreed⟩ := noneLeft
    have exhausted : slab.IsExhausted :=
      Nat.le_antisymm (highWater_le_maxSize orderly) (Nat.le_of_not_lt noRoom)
    apply allocate_of_exhausted orderly exhausted
    cases policy : slab.policy with
    | appendOnly => exact Or.inl rfl
    | reuse => exact Or.inr (not_not.mp (unfreed.resolve_left (not_not_intro policy)))
  grows := append_of_full_growable orderly ample
  drains := run_allocate_of_exhausted orderly

theorem append_continues (orderly : slab.Orderly live) :
    Continues slab (stateLeft (append slab)) := by
  have outcome := append_outcome orderly
  cases appended : append slab with
  | error failure left =>
      rw [appended] at outcome
      exact outcome.storeOnly.continues
  | ok index after =>
      rw [appended] at outcome
      obtain ⟨-, room, store, rfl, becomes⟩ := outcome
      exact continues_handOutNext room becomes

theorem allocate_continues (orderly : slab.Orderly live) :
    Continues slab (stateLeft (allocate slab)) := by
  have cases := allocate_cases orderly
  cases allocated : allocate slab with
  | error failure left =>
      rw [allocated] at cases
      exact cases.storeOnly.continues
  | ok index after =>
      rw [allocated] at cases
      exact cases.continues orderly.sound

/-- Whatever is asked of a slab, its store keeps its bounds. -/
theorem step_continues (orderly : slab.Orderly live) (command : Command) :
    Continues slab (slab.step command).2 := by
  cases command with
  | append =>
      rw [step, snd_answered]
      exact append_continues orderly
  | allocate =>
      rw [step, snd_answered]
      exact allocate_continues orderly
  | free index =>
      rw [step, snd_answered]
      cases isLive : slab.isLive index with
      | true =>
          rw [free_of_live isLive]
          exact continues_takeBack orderly.sound index
      | false =>
          rw [free_of_not_live isLive]
          exact Continues.refl orderly.sound
  | swap left right =>
      rw [step, snd_answered]
      exact (swap_elementsOnly orderly.sound left right).storeOnly.continues
  | reserve count =>
      rw [step, snd_answered]
      exact (reserve_storeOnly orderly.sound count).continues
  | clear => exact continues_clear orderly.sound
  | useStore operations =>
      have sound : Sound (Store.Cursor.start slab.store).store := orderly.sound
      rcases Store.Cursor.run_becomes sound operations with ⟨size, contents, larger, becomes⟩
      exact (StoreOnly.of_becomes larger becomes).continues
  | swapInStore left right =>
      rcases swap_becomes orderly.sound left right with ⟨contents, becomes⟩
      rw [step, snd_answered, onStore_apply]
      cases exchanged : Store.swap left right slab.store with
      | ok _ after =>
          rw [exchanged] at becomes
          exact (ElementsOnly.of_becomes becomes).storeOnly.continues
      | error fault after =>
          rw [exchanged] at becomes
          exact (ElementsOnly.of_becomes becomes).storeOnly.continues

theorem run_continues (orderly : slab.Orderly live) (commands : List Command) :
    Continues slab (slab.run commands).2 := by
  induction commands generalizing slab live with
  | nil => exact Continues.refl orderly.sound
  | cons command rest ih =>
      rcases orderly.step command with ⟨_, orderlyAfter⟩
      exact (step_continues orderly command).trans (ih orderlyAfter)

/-- With memory at hand, slabs over stores of every kind run out exactly when nothing is left,
whatever was asked of them before. -/
theorem all_exhaust_exactly (elementSize size : Nat) :
    Store.OfEveryKind elementSize size fun _ _ _ store => Store.Ample store →
      ∀ (policy : ReusePolicy) (commands : List Command),
        ((Slab.create store policy).run commands).2.ExhaustsExactly := by
  apply Store.ofEveryKind
  intro σ _ _ store fresh ample policy commands
  have created := Orderly.create fresh policy
  rcases created.run commands with ⟨live, orderly⟩
  exact exhaustsExactly orderly ((run_continues created commands).ample ample)

/-- A heap of at most eight elements that grew from three, with two of them freed after all were
handed out. -/
theorem heap_exhausts_exactly :
    ∃ store : Heap, Flat.createBounded 8 3 64 = .ok store ∧ Store.Ample store ∧
      ((Slab.create store .reuse).run
        (List.replicate 8 .append ++ [.free 2, .free 5])).2.ExhaustsExactly := by
  rcases (Flat.exists_createBounded (by decide) (by decide) (Medium.gives_heap (by decide)) :
    ∃ store : Heap, Flat.createBounded 8 3 64 = .ok store) with ⟨store, opened⟩
  have ample : Store.Ample store := Flat.ample_createBounded opened fun _ few =>
    Medium.gives_heap (Nat.lt_of_le_of_lt few (by decide))
  exact ⟨store, opened, ample, (all_exhaust_exactly 8 3).1 64 _ store opened ample .reuse _⟩

end RecordPool.Slab
