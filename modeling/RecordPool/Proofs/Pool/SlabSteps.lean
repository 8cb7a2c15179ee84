import RecordPool.Proofs.Pool.Structure
import RecordPool.Proofs.Pool.Calls
import RecordPool.Proofs.Slab.Succession

/-!
# What commands do to the slab of a pool

A command hands out an index, takes one back, forgets them all, makes room, or does no more
than use the elements.  How it is answered tells which of these it was, but for a creation
that ends in a fault: that may have been before or after an index was handed out.
-/

namespace RecordPool.Pool

open LawfulStore

variable {σ : Type} [Store σ] [LawfulStore σ] {pool : Pool σ} {live : Finset Nat}

/-- The commands that take a record back. -/
def Command.deletes : Command → Bool
  | .delete _ | .deleteId _ => true
  | _ => false

/-- What a command with its answer can do to the slab of a pool. -/
inductive SlabStep (pool : Pool σ) : Command → Answer → (after : Slab σ) → Prop where
  /-- At most the elements are used. -/
  | elements {command : Command} {answer : Answer} {after : Slab σ}
      (elementsOnly : Slab.ElementsOnly pool.slab after)
      (fruitless : command.isStructural = true → answer.isOk = false)
      (fixed : command.reserves = false) : SlabStep pool command answer after
  /-- Room is made, unless that fails. -/
  | reserved {count : Nat} {answer : Answer} {after : Slab σ}
      (storeOnly : Slab.StoreOnly pool.slab after)
      (room : after.capacity = if answer.isOk then max pool.capacity count else pool.capacity) :
      SlabStep pool (.reserve count) answer after
  /-- An index is handed out, and what follows is not refused. -/
  | handedOut {proxy : Proxy} {index : Nat} {answer : Answer} {middle after : Slab σ}
      (handsOut : Slab.HandsOut pool.slab index middle)
      (finished : Slab.ElementsOnly middle after)
      (answered : answer = .ok (.proxy (proxy.pointAt index)) ∨
        ∃ fault, answer = .error (.fault fault)) : SlabStep pool (.create proxy) answer after
  /-- A live index is taken back. -/
  | takenBack {command : Command} {index : Nat} (deletes : command.deletes = true)
      (isLive : pool.isLive index = true) :
      SlabStep pool command (.ok .done) (pool.slab.takeBack index)
  /-- All indices are forgotten. -/
  | cleared : SlabStep pool .clear (.ok .done) pool.slab.clear

theorem create_slab (orderly : pool.slab.Orderly live) (proxy : Proxy) :
    SlabStep pool (.create proxy) (pool.step (.create proxy)).1
      (pool.step (.create proxy)).2.slab := by
  by_cases own : proxy.owner = pool.id
  · have cases := Slab.allocate_cases orderly
    have created := create_of_own own
    cases allotted : Slab.allocate pool.slab with
    | error failure slab =>
        rw [allotted] at cases created
        rw [step_create_of_error created]
        exact .elements cases (fun _ => rfl) rfl
    | ok index slab =>
        rw [allotted] at cases created
        have finished := finishCreation_elementsOnly proxy index (pool.withSlab slab)
          (cases.continues orderly.sound).sound
        cases ended : finishCreation proxy index (pool.withSlab slab) with
        | error failure left =>
            rw [ended] at finished
            rcases finishCreation_error ended with ⟨fault, rfl⟩
            rw [step_create_of_error (created.trans ended)]
            exact .handedOut cases finished (Or.inr ⟨fault, rfl⟩)
        | ok pointed after =>
            rw [ended] at finished
            rcases bind_eq_ok_iff.mp ended with ⟨_, _, -, announced⟩
            rcases bind_eq_ok_iff.mp announced with ⟨_, _, -, returned⟩
            cases returned
            rw [step_create_of_ok (created.trans ended)]
            exact .handedOut cases finished (Or.inl rfl)
  · rw [step_create_of_foreign own]
    exact .elements (Slab.ElementsOnly.refl orderly.sound) (fun _ => rfl) rfl

/-- A command for a deletion takes a live index back, or fails. -/
theorem deletion_slab (orderly : pool.slab.Orderly live) {command : Command}
    (deletes : command.deletes = true) {action : EStateM (Failure Error) (Pool σ) Unit}
    (does : Deletes action pool)
    (performed : perform command = (action >>= fun _ => pure Reply.done)) :
    SlabStep pool command (pool.step command).1 (pool.step command).2.slab := by
  rw [step_eq, performed, stateLeft_bind_pure, bind_apply]
  rcases does with ⟨id, after, done, isLive, taken⟩ | ⟨failure, left, failed, same⟩
  · rw [done, stateLeft_ok, taken]
    exact .takenBack deletes isLive
  · rw [failed, stateLeft_error, same]
    refine .elements (Slab.ElementsOnly.refl orderly.sound) (fun _ => rfl) ?_
    cases command <;> first | rfl | cases deletes

/-- Room that is there already, or that the store makes, is answered for; otherwise there is as
much as before. -/
theorem reserve_room (sound : Sound pool.slab.store) (count : Nat) :
    (pool.step (.reserve count)).2.capacity =
      if (pool.step (.reserve count)).1.isOk then max pool.capacity count else pool.capacity := by
  simp only [step_eq, perform, reserve, onSlab_apply, bind_apply, adaptExcept_apply]
  by_cases room : count ≤ pool.slab.capacity
  · rw [Slab.reserve_of_room room]
    exact (Nat.max_eq_left room).symm
  · rw [Slab.reserve_of_no_room room]
    cases resized : Store.resize count pool.slab.store with
    | ok _ grown => exact (resize_ok sound resized).size_eq
    | error failure left => exact (resize_error sound resized).size_eq

theorem reserve_slab (sound : Sound pool.slab.store) (count : Nat) :
    SlabStep pool (.reserve count) (pool.step (.reserve count)).1
      (pool.step (.reserve count)).2.slab := by
  refine .reserved ?_ (reserve_room sound count)
  simp only [step_eq, perform, stateLeft_bind_pure]
  exact reserve_storeOnly count pool sound

/-- With memory at hand, room is made for as many elements as the store may have. -/
theorem reserve_isOk_iff (sound : Sound pool.slab.store) (ample : Store.Ample pool.slab.store)
    (count : Nat) :
    (pool.step (.reserve count)).1.isOk = true ↔ count ≤ Store.maxSize pool.slab.store := by
  simp only [step_eq, perform, reserve, onSlab_apply, bind_apply, adaptExcept_apply]
  by_cases room : count ≤ pool.slab.capacity
  · rw [Slab.reserve_of_room room]
    exact ⟨fun _ => Nat.le_trans room (size_le_maxSize sound), fun _ => rfl⟩
  · rw [Slab.reserve_of_no_room room]
    by_cases within : count ≤ Store.maxSize pool.slab.store
    · rcases resize_affordable sound within (ample count within) with ⟨grown, resized⟩
      rw [resized]
      exact ⟨fun _ => within, fun _ => rfl⟩
    · rw [resize_beyond sound (Nat.lt_of_not_le within)]
      constructor
      · intro answered
        cases answered
      · intro le
        exact absurd le within

/-- Every command is one of the steps. -/
theorem step_slab (orderly : pool.slab.Orderly live) (command : Command) :
    SlabStep pool command (pool.step command).1 (pool.step command).2.slab := by
  cases command with
  | create proxy => exact create_slab orderly proxy
  | delete proxy => exact deletion_slab orderly rfl (delete_deletes proxy pool) rfl
  | deleteId id => exact deletion_slab orderly rfl (deleteId_deletes id pool) rfl
  | clear => exact .cleared
  | reserve count => exact reserve_slab orderly.sound count
  | _ =>
      refine .elements ?_ (fun structural => by cases structural) rfl
      rw [step_eq]
      exact perform_elementsOnly rfl rfl pool orderly.sound

theorem SlabStep.continues (sound : Sound pool.slab.store) {command : Command} {answer : Answer}
    {after : Slab σ} (step : SlabStep pool command answer after) :
    Slab.Continues pool.slab after := by
  cases step with
  | elements elementsOnly _ _ => exact elementsOnly.storeOnly.continues
  | reserved storeOnly _ => exact storeOnly.continues
  | handedOut handsOut finished _ =>
      exact (handsOut.continues sound).trans finished.storeOnly.continues
  | takenBack _ _ => exact Slab.continues_takeBack sound _
  | cleared => exact Slab.continues_clear sound

/-- A run of a pool keeps the element size of the store, its bounds and the room there is. -/
theorem run_continues (orderly : pool.slab.Orderly live) (commands : List Command) :
    Slab.Continues pool.slab (pool.run commands).2.slab := by
  induction commands generalizing pool live with
  | nil => exact Slab.Continues.refl orderly.sound
  | cons command rest ih =>
      rcases step_orderly orderly command with ⟨middle, orderlyAfter⟩
      exact ((step_slab orderly command).continues orderly.sound).trans (ih orderlyAfter)

omit [LawfulStore σ] in
/-- A pool keeps its layout. -/
theorem step_layout (pool : Pool σ) (command : Command) :
    (pool.step command).2.layout = pool.layout := by
  have lasting (topic? : Option Topic) :
      Lasting (fun before after : Pool σ => after.layout = before.layout) topic? := {
    refl := fun _ => rfl
    trans := fun _ _ _ earlier later => later.trans earlier
    withSlab := fun _ _ => rfl
    announce := fun topic _ phase index pool => by
      rw [stateLeft_announce]
      rfl }
  cases confined : command.isConfined with
  | true => exact step_keeps (lasting command.topic?) confined pool
  | false =>
      cases command with
      | subscribe topic listener => cases topic <;> rfl
      | unsubscribe id =>
          simp only [step_eq, perform, change, stateLeft_ok, unsubscribe]
          split
          · rfl
          · split <;> rfl
      | acquire =>
          simp only [step_eq, perform, change, stateLeft_ok, acquire]
          cases pool.spares <;> rfl
      | release proxy =>
          by_cases own : proxy.owner = pool.id
          · simp only [step_eq, perform, change, release_of_own own, stateLeft_ok]
            split <;> rfl
          · simp only [step_eq, perform, change, release_of_foreign own, stateLeft_ok]
      | setInitializer initializer => rfl
      | setValidation validation => rfl
      | mint => rfl
      | _ => cases confined

omit [LawfulStore σ] in
theorem run_layout (pool : Pool σ) (commands : List Command) :
    (pool.run commands).2.layout = pool.layout := by
  induction commands generalizing pool with
  | nil => rfl
  | cons command rest ih => exact (ih (pool.step command).2).trans (step_layout pool command)

end RecordPool.Pool
