import RecordPool.Proofs.Computation
import RecordPool.Slab

/-!
# What the operations of a slab do

Every operation of a slab ends in one of a few ways, which depend on the policy, the free
list, the high-water mark and the store.  For each of them the outcome is written out, so
that nothing below has to look into an operation again.
-/

namespace RecordPool.Slab

variable {σ : Type}

/-- The slab with another store. -/
def withStore (slab : Slab σ) (store : σ) : Slab σ :=
  { slab with store := store }

/-- The slab with the index at the high-water mark handed out. -/
def handOutNext (slab : Slab σ) : Slab σ :=
  { slab.markLive slab.highWater with highWater := slab.highWater + 1 }

/-- The slab with an index handed out again. -/
def handOutAgain (slab : Slab σ) (index : Nat) (rest : List Nat) : Slab σ :=
  { slab.markLive index with freed := rest }

/-- The slab with a live index taken back. -/
def takeBack (slab : Slab σ) (index : Nat) : Slab σ :=
  { slab with
    live := (slab.live.erase index).2
    freed := index :: slab.freed
    version := slab.version + 1 }

/-- The outcome of a computation on the store of a slab. -/
def ofStoreOutcome {ε α : Type} (slab : Slab σ) :
    EStateM.Result ε σ α → EStateM.Result ε (Slab σ) α
  | .ok value store => .ok value (slab.withStore store)
  | .error error store => .error error (slab.withStore store)

theorem onStore_apply {ε α : Type} (action : EStateM ε σ α) (slab : Slab σ) :
    onStore action slab = slab.ofStoreOutcome (action slab.store) := by
  unfold onStore focus
  cases action slab.store <;> rfl

section HandingOut

variable [Store σ] {slab : Slab σ}

theorem append_of_room (room : slab.highWater ≠ slab.capacity) :
    append slab = .ok slab.highWater slab.handOutNext := by
  simp only [append, bind_apply, get_apply, ite_action_apply, if_neg room, pure_apply,
    modify_apply]
  rfl

/-- A slab whose store is full and cannot grow refuses. -/
theorem append_of_maximal (full : slab.highWater = slab.capacity)
    (maximal : Store.maxSize slab.store < slab.highWater + 1) :
    append slab =
      .error (.refused
        (.capacityExceeded (slab.highWater + 1) (Store.maxSize slab.store))) slab := by
  simp only [append, growFor, bind_apply, get_apply, ite_action_apply, if_pos full,
    if_pos maximal, throw_apply]

/-- A slab whose store is full grows it first. -/
theorem append_of_full (full : slab.highWater = slab.capacity)
    (growable : ¬ Store.maxSize slab.store < slab.highWater + 1) :
    append slab =
      match Store.resize (grownSize slab.store (slab.highWater + 1)) slab.store with
      | .ok _ grown => .ok slab.highWater (slab.withStore grown).handOutNext
      | .error failure left => .error failure (slab.withStore left) := by
  simp only [append, growFor, bind_apply, get_apply, ite_action_apply, if_pos full,
    if_neg growable, onStore_apply]
  cases Store.resize (grownSize slab.store (slab.highWater + 1)) slab.store <;> rfl

/-- Under `reuse` the index freed last comes first. -/
theorem allocate_of_freed {index : Nat} {rest : List Nat} (reuses : slab.policy = .reuse)
    (freed : slab.freed = index :: rest) :
    allocate slab = .ok index (slab.handOutAgain index rest) := by
  simp only [allocate, bind_apply, get_apply, reuses, freed, set_apply, pure_apply]
  rfl

theorem allocate_of_none_freed (freed : slab.freed = []) : allocate slab = append slab := by
  simp only [allocate, bind_apply, get_apply, freed]
  cases slab.policy <;> rfl

theorem allocate_of_appendOnly (policy : slab.policy = .appendOnly) :
    allocate slab = append slab := by
  simp only [allocate, bind_apply, get_apply, policy]

end HandingOut

section TakingBack

variable {slab : Slab σ} {index : Nat}

theorem free_of_live (isLive : slab.isLive index = true) :
    free index slab = .ok () (slab.takeBack index) := by
  simp only [free, bind_apply, get_apply, ite_action_apply, if_pos isLive, set_apply]
  rfl

theorem free_of_not_live (notLive : slab.isLive index = false) :
    free index slab = .error (.notLive index) slab := by
  simp only [free, bind_apply, get_apply, ite_action_apply, notLive, throw_apply]
  rfl

end TakingBack

section Room

variable [Store σ] {slab : Slab σ}

theorem swap_of_left_unknown {left right : Nat} (unknown : slab.highWater ≤ left) :
    swap left right slab =
      .error (.refused (.indexOutOfRange left slab.highWater)) slab := by
  simp only [swap, bind_apply, get_apply, ite_action_apply, if_pos unknown, throw_apply]

theorem swap_of_right_unknown {left right : Nat} (known : left < slab.highWater)
    (unknown : slab.highWater ≤ right) :
    swap left right slab =
      .error (.refused (.indexOutOfRange right slab.highWater)) slab := by
  simp only [swap, bind_apply, get_apply, ite_action_apply, if_neg (Nat.not_le.mpr known),
    if_pos unknown, throw_apply]

theorem swap_of_known {left right : Nat} (leftKnown : left < slab.highWater)
    (rightKnown : right < slab.highWater) :
    swap left right slab =
      match Store.swap left right slab.store with
      | .ok _ after => .ok () (slab.withStore after)
      | .error fault left => .error (.fault fault) (slab.withStore left) := by
  simp only [swap, bind_apply, get_apply, ite_action_apply,
    if_neg (Nat.not_le.mpr leftKnown), if_neg (Nat.not_le.mpr rightKnown), adaptExcept_apply,
    onStore_apply]
  cases Store.swap left right slab.store <;> rfl

theorem reserve_of_room {count : Nat} (room : count ≤ slab.capacity) :
    reserve count slab = .ok () slab := by
  simp only [reserve, bind_apply, get_apply, ite_action_apply, if_pos room, pure_apply]

theorem reserve_of_no_room {count : Nat} (noRoom : ¬ count ≤ slab.capacity) :
    reserve count slab = slab.ofStoreOutcome (Store.resize count slab.store) := by
  simp only [reserve, bind_apply, get_apply, ite_action_apply, if_neg noRoom, onStore_apply]

end Room

end RecordPool.Slab
