import RecordPool.Proofs.Interner.History
import Mathlib.Data.List.Range

/-!
# Ids minted in order

A table that mints its ids itself mints `0, 1, 2, …`, one for every call with an absent key, and
gives no id twice: neither to another key, nor to the same key once it was removed.

The next id is above all ids that are given.  That shows a new id to be none of those present;
that it is none of those removed takes a relation between tables at two times: an id that was
below the next one at the earlier time and is present at the later time was never gone between.
-/

namespace RecordPool.Interner

variable {κ ε ω : Type}

/-- Some ids and the one that was answered to a call, if it is none of them. -/
def Event.idsAfter (ids : List Nat) (event : Event κ ε ω) : List Nat :=
  match event.reply with
  | .id id => if id ∈ ids then ids else ids ++ [id]
  | _ => ids

/-- The ids that were answered, in the order in which they first came up. -/
def mintedIds (history : List (Event κ ε ω)) : List Nat :=
  history.foldl Event.idsAfter []

variable [DecidableEq κ]

/-- A table whose ids are those that it minted, with the ids that it minted in order. -/
structure Counted (table : Interner κ) (ids : List Nat) : Prop where
  ids_eq : ids = List.range table.nextId
  lt_nextId : ∀ key id, table.get? key = some id → id < table.nextId
  distinct : ∀ left right id,
    table.get? left = some id → table.get? right = some id → left = right

theorem counted_empty : Counted ({} : Interner κ) [] where
  ids_eq := rfl
  lt_nextId _ _ found := nomatch found
  distinct _ _ _ found := nomatch found

variable {table : Interner κ} {ids : List Nat} {key : κ} {id : Nat}

/-- An id that is minted is a new one. -/
theorem Counted.mint (counted : Counted table ids) (absent : table.get? key = none) :
    table.nextId ∉ ids ∧ Counted (table.intern key).2 (ids ++ [table.nextId]) := by
  have next : (table.intern key).2.nextId = table.nextId + 1 := by simp only [intern, absent]
  refine ⟨by simp [counted.ids_eq], ⟨?_, ?_, ?_⟩⟩
  · rw [next, List.range_succ, ← counted.ids_eq]
  · intro other id found
    rw [get?_mint absent] at found
    split at found
    · obtain rfl := Option.some.inj found
      omega
    · have below := counted.lt_nextId other id found
      omega
  · intro left right id ofLeft ofRight
    rw [get?_mint absent] at ofLeft ofRight
    -- The key that is minted for has the next id, and every other one a smaller id.
    have apart : ∀ other, table.get? other ≠ some table.nextId := fun other found =>
      Nat.lt_irrefl _ (counted.lt_nextId other _ found)
    split at ofLeft <;> split at ofRight
    · next isLeft isRight => rw [isLeft, isRight]
    · next => exact absurd (ofRight.trans ofLeft.symm) (apart right)
    · next => exact absurd (ofLeft.trans ofRight.symm) (apart left)
    · exact counted.distinct left right id ofLeft ofRight

theorem Counted.remove (counted : Counted table ids) (key : κ) :
    Counted (table.remove key).2 ids := by
  have kept : ∀ other id, (table.remove key).2.get? other = some id →
      table.get? other = some id := by
    intro other id found
    rw [get?_remove] at found
    split at found
    · cases found
    · exact found
  exact ⟨counted.ids_eq,
    fun other id found => counted.lt_nextId other id (kept other id found),
    fun left right id ofLeft ofRight =>
      counted.distinct left right id (kept left id ofLeft) (kept right id ofRight)⟩

/-- A table that goes on counts on. -/
theorem Counted.step {session : Session κ ω} (counted : Counted session.table ids)
    {call : Call κ ε ω} (plain : call.assign? = none) :
    Counted (session.step call).2.table
      (Event.idsAfter ids ⟨call, (session.step call).1⟩) := by
  cases call with
  | intern key =>
      cases present : session.table.get? key with
      | some id =>
          have among : id ∈ ids := by
            rw [counted.ids_eq, List.mem_range]
            exact counted.lt_nextId key id present
          simp only [step_intern_of_known present, Event.idsAfter, if_pos among]
          exact counted
      | none =>
          obtain ⟨isNew, minted⟩ := counted.mint present
          simp only [step_intern_of_absent present, Event.idsAfter, if_neg isNew]
          exact minted
  | internWith key assign => cases plain
  | get key => exact counted
  | remove key => exact counted.remove key
  | count => exact counted

theorem Counted.after {session : Session κ ω} (counted : Counted session.table ids)
    {calls : List (Call κ ε ω)} (plain : ∀ call ∈ calls, call.assign? = none) :
    Counted (session.after calls).table ((session.history calls).foldl Event.idsAfter ids) := by
  induction calls generalizing session ids with
  | nil => exact counted
  | cons call rest ih =>
      obtain ⟨plainNow, plainLater⟩ := List.forall_mem_cons.mp plain
      exact ih (counted.step plainNow) plainLater

/-- An id that was minted before the first time, and that a key has at the second, the key had at
the first. -/
structure Continues (before after : Interner κ) : Prop where
  nextId_le : before.nextId ≤ after.nextId
  get?_of_lt : ∀ key id, after.get? key = some id → id < before.nextId →
    before.get? key = some id

namespace Continues

theorem refl (table : Interner κ) : Continues table table where
  nextId_le := Nat.le_refl _
  get?_of_lt _ _ found _ := found

theorem trans {first second third : Interner κ} (earlier : Continues first second)
    (later : Continues second third) : Continues first third where
  nextId_le := Nat.le_trans earlier.nextId_le later.nextId_le
  get?_of_lt key id found below :=
    have between := later.get?_of_lt key id found (Nat.lt_of_lt_of_le below earlier.nextId_le)
    earlier.get?_of_lt key id between below

theorem mint (absent : table.get? key = none) : Continues table (table.intern key).2 where
  nextId_le := by
    simp only [intern, absent]
    exact Nat.le_succ _
  get?_of_lt other id found below := by
    rw [get?_mint absent] at found
    split at found
    · obtain rfl := Option.some.inj found
      exact absurd below (Nat.lt_irrefl _)
    · exact found

theorem remove (table : Interner κ) (key : κ) : Continues table (table.remove key).2 where
  nextId_le := Nat.le_refl _
  get?_of_lt other id found _ := by
    rw [get?_remove] at found
    split at found
    · cases found
    · exact found

theorem step (session : Session κ ω) {call : Call κ ε ω} (plain : call.assign? = none) :
    Continues session.table (session.step call).2.table := by
  cases call with
  | intern key =>
      cases present : session.table.get? key with
      | some id =>
          rw [step_intern_of_known present]
          exact refl session.table
      | none =>
          rw [step_intern_of_absent present]
          exact mint present
  | internWith key assign => cases plain
  | get key => exact refl session.table
  | remove key => exact remove session.table key
  | count => exact refl session.table

theorem after (session : Session κ ω) {calls : List (Call κ ε ω)}
    (plain : ∀ call ∈ calls, call.assign? = none) :
    Continues session.table (session.after calls).table := by
  induction calls generalizing session with
  | nil => exact refl session.table
  | cons call rest ih =>
      obtain ⟨plainNow, plainLater⟩ := List.forall_mem_cons.mp plain
      exact (step session plainNow).trans (ih (session.step call).2 plainLater)

end Continues

/-- How a table goes on that mints all of its ids itself. -/
structure MintsInOrder (session : Session κ ω) (history : List (Event κ ε ω)) : Prop where
  mintedIds_eq : mintedIds history = List.range (mintedIds history).length
  /-- A call mints for an absent key, and the ids are minted in order. -/
  mints_next : ∀ key, known? history key = none →
    (session.step (.intern key : Call κ ε ω)).1 = .id (mintedIds history).length
  mints_iff : ∀ key id, (session.step (.intern key : Call κ ε ω)).1 = .id id →
    (id ∉ mintedIds history ↔ known? history key = none)
  distinct : ∀ left right id,
    known? history left = some id → known? history right = some id → left = right
  /-- An id that was given is given to the same key only, and only until it is removed. -/
  never_again : ∀ key id, (session.step (.intern key : Call κ ε ω)).1 = .id id →
    ∀ later : List (Call κ ε ω), (∀ call ∈ later, call.assign? = none) → ∀ other,
      (((session.step (.intern key : Call κ ε ω)).2.after later).step
        (.intern other : Call κ ε ω)).1 = .id id →
      other = key ∧ .remove key ∉ later

/-- An id that a table answers is known or the next one. -/
theorem intern_answer {session : Session κ ω} {key : κ} {id : Nat}
    (answer : (session.step (.intern key : Call κ ε ω)).1 = .id id) :
    session.table.get? key = some id ∨
      session.table.get? key = none ∧ id = session.table.nextId := by
  cases present : session.table.get? key with
  | some found =>
      rw [step_intern_of_known present] at answer
      cases answer
      exact .inl rfl
  | none =>
      rw [step_intern_of_absent present] at answer
      cases answer
      exact .inr ⟨rfl, rfl⟩

/-- A key that was interned has the id that was answered. -/
theorem get?_of_interned {session : Session κ ω} {key : κ} {id : Nat}
    (answer : (session.step (.intern key : Call κ ε ω)).1 = .id id) :
    (session.step (.intern key : Call κ ε ω)).2.table.get? key = some id := by
  rw [get?_step, answer]
  exact if_pos rfl

theorem Counted.never_again {session : Session κ ω} (counted : Counted session.table ids)
    (given : session.table.get? key = some id) {later : List (Call κ ε ω)}
    (plain : ∀ call ∈ later, call.assign? = none) {other : κ}
    (answer : ((session.after later).step (.intern other : Call κ ε ω)).1 = .id id) :
    other = key ∧ .remove key ∉ later := by
  have below : id < session.table.nextId := counted.lt_nextId key id given
  have continues := Continues.after session plain
  rcases intern_answer answer with found | ⟨-, isNext⟩
  · have foundBefore := continues.get?_of_lt other id found below
    obtain rfl := counted.distinct other key id foundBefore given
    refine ⟨rfl, fun removed => ?_⟩
    -- Right after the removal the key has no id, and it does not get this one again.
    obtain ⟨earlier, rest, rfl⟩ := List.append_of_mem removed
    obtain ⟨plainEarlier, plainRemoval⟩ := List.forall_mem_append.mp plain
    obtain ⟨-, plainRest⟩ := List.forall_mem_cons.mp plainRemoval
    rw [Session.after_append] at found
    have gone := (Continues.after _ plainRest).get?_of_lt other id found
      (Nat.lt_of_lt_of_le below (Continues.after session plainEarlier).nextId_le)
    rw [get?_step] at gone
    simp [Event.idAfter] at gone
  · have above := continues.nextId_le
    omega

theorem mintsInOrder (state : ω) {calls : List (Call κ ε ω)}
    (plain : ∀ call ∈ calls, call.assign? = none) :
    MintsInOrder ((Session.start state).after calls) ((Session.start state).history calls) := by
  have agrees := get?_eq_known? state calls
  have countedStart : Counted (Session.start state : Session κ ω).table [] := counted_empty
  have counted : Counted ((Session.start state).after calls).table
      (mintedIds ((Session.start state).history calls)) := countedStart.after plain
  have length_eq : (mintedIds ((Session.start state).history calls)).length =
      ((Session.start state).after calls).table.nextId := by
    rw [counted.ids_eq, List.length_range]
  refine ⟨?_, ?_, ?_, ?_, ?_⟩
  · rw [length_eq]
    exact counted.ids_eq
  · intro key absent
    rw [step_intern_of_absent ((agrees key).trans absent), length_eq]
  · intro key id answer
    rw [← agrees, counted.ids_eq, List.mem_range]
    rcases intern_answer answer with found | ⟨absent, rfl⟩
    · simp [found, counted.lt_nextId key id found]
    · simp [absent]
  · intro left right id ofLeft ofRight
    exact counted.distinct left right id ((agrees left).trans ofLeft)
      ((agrees right).trans ofRight)
  · intro key id answer later plainLater other again
    have plainNow : (Call.intern key : Call κ ε ω).assign? = none := rfl
    exact (counted.step plainNow).never_again (get?_of_interned answer) plainLater again

end RecordPool.Interner
