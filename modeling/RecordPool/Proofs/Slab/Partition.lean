import RecordPool.Proofs.Slab.Account
import RecordPool.Proofs.Store.Backend
import RecordPool.Proofs.Store.Operation
import Mathlib.Data.Set.Card

/-!
# Live, freed and unallocated indices

Runs of a slab: whatever it is asked, and whatever is done to its store meanwhile, every
index below the high-water mark is either live or freed, none above it is either, and the
counts tell how many there are.  An index that is handed out was not live.
-/

namespace RecordPool.Slab

variable {σ : Type} [Store σ]

/-- What can be asked of a slab and of the store below it. -/
inductive Command where
  | append
  | allocate
  | free (index : Nat)
  | swap (left right : Nat)
  | reserve (count : Nat)
  | clear
  /-- Uses of the store itself, through a cursor or not. -/
  | useStore (operations : List Store.Operation)
  /-- An exchange in the store itself, whatever is handed out. -/
  | swapInStore (left right : Nat)

/-- What is answered to a command that does not fail. -/
inductive Reply where
  | done
  | index (index : Nat)

/-- The answer to a command. -/
abbrev Answer := Except (Failure Store.Error) Reply

/-- The answer to an outcome, and the slab after it. -/
def answered {ε α : Type} (reply : α → Reply) (fail : ε → Failure Store.Error) :
    EStateM.Result ε (Slab σ) α → Answer × Slab σ
  | .ok value slab => (.ok (reply value), slab)
  | .error error slab => (.error (fail error), slab)

/-- Carries out a command whatever its outcome. -/
def step (slab : Slab σ) : Command → Answer × Slab σ
  | .append => answered .index id (append slab)
  | .allocate => answered .index id (allocate slab)
  | .free index => answered (fun _ => .done) .refused (free index slab)
  | .swap left right => answered (fun _ => .done) id (swap left right slab)
  | .reserve count => answered (fun _ => .done) id (reserve count slab)
  | .clear => (.ok .done, slab.clear)
  | .useStore operations =>
      (.ok .done, slab.withStore ((Store.Cursor.start slab.store).run operations).2.store)
  | .swapInStore left right =>
      answered (fun _ => .done) .fault (onStore (Store.swap left right) slab)

/-- Carries out commands in order. -/
def run (slab : Slab σ) : List Command → List Answer × Slab σ
  | [] => ([], slab)
  | command :: rest =>
      let (answer, after) := slab.step command
      let (answers, final) := after.run rest
      (answer :: answers, final)

/-- Live, freed and unallocated indices are told apart by the high-water mark and counted,
and the store has room for those handed out. -/
structure Partitioned (slab : Slab σ) : Prop where
  freed_nodup : slab.freed.Nodup
  not_freed_of_live : ∀ index, slab.isLive index = true → index ∉ slab.freed
  lt_highWater_iff : ∀ index,
    index < slab.highWater ↔ slab.isLive index = true ∨ index ∈ slab.freed
  liveCount_eq : slab.liveCount = Set.ncard {index | slab.isLive index = true}
  liveCount_add_freeCount : slab.liveCount + slab.freeCount = slab.highWater
  highWater_le : slab.highWater ≤ Elements.size slab.store
  size_le : Elements.size slab.store ≤ Store.maxSize slab.store

omit [Store σ] in
@[simp]
theorem snd_answered {ε α : Type} (reply : α → Reply) (fail : ε → Failure Store.Error)
    (outcome : EStateM.Result ε (Slab σ) α) :
    (answered reply fail outcome).2 = stateLeft outcome := by
  cases outcome <;> rfl

variable [LawfulStore σ] {slab : Slab σ} {live : Finset Nat}

theorem Orderly.partitioned (orderly : slab.Orderly live) : slab.Partitioned where
  freed_nodup := orderly.account.freed_nodup
  not_freed_of_live index isLive freed := by
    rw [orderly.account.isLive_eq, decide_eq_true_iff] at isLive
    exact orderly.account.not_live_of_freed index freed isLive
  lt_highWater_iff index := by
    rw [orderly.account.isLive_eq, decide_eq_true_iff]
    exact orderly.account.lt_highWater_iff index
  liveCount_eq := by
    have members : {index | slab.isLive index = true} = (live : Set Nat) := by
      ext index
      rw [Set.mem_ofPred_eq, orderly.account.isLive_eq, decide_eq_true_iff, Finset.mem_coe]
    rw [members, Set.ncard_coe_finset]
    exact orderly.account.represents.count_eq
  liveCount_add_freeCount := orderly.account.liveCount_add_freeCount
  highWater_le := orderly.highWater_le
  size_le := LawfulStore.size_le_maxSize orderly.sound

/-- Every command leaves an orderly slab orderly. -/
theorem Orderly.step (orderly : slab.Orderly live) (command : Command) :
    ∃ live', (slab.step command).2.Orderly live' := by
  cases command with
  | append =>
      have kept := orderly.append
      rw [Slab.step, snd_answered]
      cases outcome : Slab.append slab with
      | ok index after =>
          rw [outcome] at kept
          exact ⟨_, kept.2.2⟩
      | error failure after =>
          rw [outcome] at kept
          exact ⟨_, orderly.storeOnly kept⟩
  | allocate =>
      have kept := orderly.allocate
      rw [Slab.step, snd_answered]
      cases outcome : Slab.allocate slab with
      | ok index after =>
          rw [outcome] at kept
          exact ⟨_, kept.2.2⟩
      | error failure after =>
          rw [outcome] at kept
          exact ⟨_, orderly.storeOnly kept⟩
  | free index =>
      have isLive_eq := orderly.account.isLive_eq index
      rw [Slab.step, snd_answered]
      by_cases member : index ∈ live
      · rw [free_of_live (by rw [isLive_eq, decide_eq_true member])]
        exact ⟨_, orderly.takeBack member⟩
      · rw [free_of_not_live (by rw [isLive_eq, decide_eq_false member])]
        exact ⟨_, orderly⟩
  | swap left right =>
      rw [Slab.step, snd_answered]
      exact ⟨_, orderly.storeOnly (swap_elementsOnly orderly.sound left right).storeOnly⟩
  | reserve count =>
      rw [Slab.step, snd_answered]
      exact ⟨_, orderly.storeOnly (reserve_storeOnly orderly.sound count)⟩
  | clear => exact ⟨_, orderly.clear⟩
  | useStore operations =>
      have sound : LawfulStore.Sound (Store.Cursor.start slab.store).store := orderly.sound
      rcases Store.Cursor.run_becomes sound operations with ⟨size, contents, larger, becomes⟩
      exact ⟨_, orderly.storeOnly (StoreOnly.of_becomes larger becomes)⟩
  | swapInStore left right =>
      rcases LawfulStore.swap_becomes orderly.sound left right with ⟨contents, becomes⟩
      rw [Slab.step, snd_answered, onStore_apply]
      cases exchanged : Store.swap left right slab.store with
      | ok _ after =>
          rw [exchanged] at becomes
          exact ⟨_, orderly.storeOnly (StoreOnly.of_becomes (Nat.le_refl _) becomes)⟩
      | error fault after =>
          rw [exchanged] at becomes
          exact ⟨_, orderly.storeOnly (StoreOnly.of_becomes (Nat.le_refl _) becomes)⟩

theorem Orderly.run (orderly : slab.Orderly live) (commands : List Command) :
    ∃ live', (slab.run commands).2.Orderly live' := by
  induction commands generalizing slab live with
  | nil => exact ⟨live, orderly⟩
  | cons command rest ih =>
      rcases orderly.step command with ⟨middle, orderlyAfter⟩
      exact ih orderlyAfter

theorem Orderly.create {elementSize size : Nat} {store : σ}
    (fresh : Store.Fresh elementSize size store) (policy : ReusePolicy) :
    (Slab.create store policy).Orderly ∅ where
  account := Accounts.create store policy
  sound := fresh.sound
  highWater_le := Nat.zero_le _

/-- Whatever is asked of a slab over a store, its indices are partitioned, and neither way
of handing out an index gives one that is live. -/
def KeepsPartition (store : σ) : Prop :=
  ∀ (policy : ReusePolicy) (commands : List Command),
    let slab := ((Slab.create store policy).run commands).2
    slab.Partitioned ∧
      (∀ index after, append slab = .ok index after → slab.isLive index = false) ∧
      (∀ index after, allocate slab = .ok index after → slab.isLive index = false)

theorem keepsPartition_of_fresh {elementSize size : Nat} {store : σ}
    (fresh : Store.Fresh elementSize size store) : KeepsPartition store := by
  intro policy commands
  rcases (Orderly.create fresh policy).run commands with ⟨live, orderly⟩
  refine ⟨orderly.partitioned, ?_, ?_⟩
  · intro index after handedOut
    have notLive := orderly.append
    rw [handedOut] at notLive
    rw [orderly.account.isLive_eq, decide_eq_false notLive.1]
  · intro index after handedOut
    have notLive := orderly.allocate
    rw [handedOut] at notLive
    rw [orderly.account.isLive_eq, decide_eq_false notLive.1]

/-- The indices of a slab are partitioned after every run over a store of every kind. -/
theorem all_keep_partition (elementSize size : Nat) :
    Store.OfEveryKind elementSize size fun _ _ _ store => KeepsPartition store :=
  Store.ofEveryKind fun _ _ _ _ fresh => keepsPartition_of_fresh fresh

/-- A slab over a heap, after an index was freed and handed out again. -/
theorem heap_keeps_partition :
    ∃ store : Heap, Flat.createBounded 8 1 64 = .ok store ∧
      ((Slab.create store .reuse).run
        [.append, .append, .free 0, .allocate, .free 7]).2.Partitioned := by
  rcases (Flat.exists_createBounded (by decide) (by decide) (Medium.gives_heap (by decide)) :
    ∃ store : Heap, Flat.createBounded 8 1 64 = .ok store) with ⟨store, opened⟩
  exact ⟨store, opened, ((all_keep_partition 8 1).1 64 _ store opened .reuse
    [.append, .append, .free 0, .allocate, .free 7]).1⟩

end RecordPool.Slab
