import RecordPool.Pool.Command
import RecordPool.Proofs.Pool.FieldWrite
import RecordPool.Proofs.Slab.Account

/-!
# What commands do to the slab

Telling listeners touches the journal alone, and edits, exchanges and reservations touch the
store alone; none of them has a part in the account of indices.  Creation, deletion and
clearing are the only commands that have, and what they do to the slab is written out.
-/

namespace RecordPool.Pool

variable {σ ε α : Type}

/-- The pool with another slab. -/
def withSlab (pool : Pool σ) (slab : Slab σ) : Pool σ :=
  { pool with slab := slab }

/-- The pool with another journal. -/
def withJournal (pool : Pool σ) (journal : Journal) : Pool σ :=
  { pool with journal := journal }

theorem onStore_apply (action : EStateM ε σ α) (pool : Pool σ) :
    onStore action pool =
      match action pool.slab.store with
      | .ok value store => .ok value (pool.withSlab (pool.slab.withStore store))
      | .error error store => .error error (pool.withSlab (pool.slab.withStore store)) := by
  unfold onStore focus
  cases action pool.slab.store <;> rfl

theorem onSlab_apply (action : EStateM ε (Slab σ) α) (pool : Pool σ) :
    onSlab action pool =
      match action pool.slab with
      | .ok value slab => .ok value (pool.withSlab slab)
      | .error error slab => .error error (pool.withSlab slab) := by
  unfold onSlab focus
  cases action pool.slab <;> rfl

theorem onPool_apply (action : EStateM ε (Pool σ) α) (hand : Hand σ) :
    onPool action hand =
      match action hand.pool with
      | .ok value pool => .ok value { hand with pool := pool }
      | .error error pool => .error error { hand with pool := pool } := by
  unfold onPool focus
  cases action hand.pool <;> rfl

theorem onJournal_apply (action : EStateM ε Journal α) (pool : Pool σ) :
    onJournal action pool =
      match action pool.journal with
      | .ok value journal => .ok value (pool.withJournal journal)
      | .error error journal => .error error (pool.withJournal journal) := by
  unfold onJournal focus
  cases action pool.journal <;> rfl

theorem step_eq [Store σ] (pool : Pool σ) (command : Command) :
    pool.step command = (answerOf (perform command pool), stateLeft (perform command pool)) := by
  unfold step
  cases perform command pool <;> rfl

/-- Telling listeners leaves the slab alone. -/
theorem slab_announce [Store σ] (listeners : Pool σ → List Subscription) (phase : Phase)
    (index : Nat) (pool : Pool σ) :
    (stateLeft (announce listeners phase index pool)).slab = pool.slab := by
  simp only [announce, bind_apply, get_apply, ite_action_apply]
  by_cases nobody : (listeners pool).isEmpty
  · rw [if_pos nobody]
    rfl
  · rw [if_neg nobody]
    cases pool.record index with
    | error fault => rfl
    | ok record =>
        simp only [ofExcept_ok_apply, onJournal_apply]
        cases Journal.tell phase record (listeners pool) pool.journal <;> rfl

theorem aim_of_foreign {pool : Pool σ} {proxy : Proxy} (foreign : proxy.owner ≠ pool.id)
    (id : Nat) : pool.aim id proxy = .error (.foreignProxy proxy.owner pool.id) proxy := by
  simp only [aim, bind_apply, get_apply, checkOwner, if_neg foreign, ofExcept_error_apply]

theorem aim_of_own {pool : Pool σ} {proxy : Proxy} (own : proxy.owner = pool.id) (id : Nat) :
    pool.aim id proxy =
      if pool.validation && !pool.isLive id then
        .error (.noSuchElement id) proxy
      else
        .ok () (proxy.pointAt id) := by
  simp only [aim, bind_apply, get_apply, checkOwner, if_pos own, ofExcept_ok_apply,
    ite_action_apply]
  rfl

theorem lookUp_of_foreign {pool : Pool σ} {proxy : Proxy} (foreign : proxy.owner ≠ pool.id)
    (id : Nat) : pool.lookUp id proxy = .error (.foreignProxy proxy.owner pool.id) := by
  rw [lookUp, aim_of_foreign foreign]

theorem lookUp_of_own {pool : Pool σ} {proxy : Proxy} (own : proxy.owner = pool.id) (id : Nat) :
    pool.lookUp id proxy =
      if pool.validation && !pool.isLive id then
        .error (.noSuchElement id)
      else
        .ok (proxy.pointAt id) := by
  rw [lookUp, aim_of_own own]
  cases pool.validation && !pool.isLive id <;> rfl

theorem lookUp?_eq (pool : Pool σ) (id : Nat) (proxy : Proxy) :
    pool.lookUp? id proxy =
      if proxy.owner = pool.id ∧ pool.isLive id then some (proxy.pointAt id) else none := by
  by_cases found : proxy.owner = pool.id ∧ pool.isLive id
  · rw [lookUp?, aimIfLive, if_pos found, if_pos found]
  · rw [lookUp?, aimIfLive, if_neg found, if_neg found]

theorem release_of_foreign {pool : Pool σ} {proxy : Proxy} (foreign : proxy.owner ≠ pool.id) :
    pool.release proxy = .error ⟨proxy, .foreignProxy proxy.owner pool.id⟩ := by
  simp only [release, checkOwner, if_neg foreign]

/-- A proxy of the pool waits for use again, unbound, if there is room for it. -/
theorem release_of_own {pool : Pool σ} {proxy : Proxy} (own : proxy.owner = pool.id) :
    pool.release proxy =
      .ok (if pool.spares.length < pool.spareLimit then
        { pool with spares := pool.spares ++ [proxy.unbind] }
      else
        pool) := by
  simp only [release, checkOwner, if_pos own]
  split <;> rfl

/-! ## Changes of the store alone -/

section ElementsOnly

variable [Store σ] [LawfulStore σ]

open LawfulStore

/-- The elements alone have changed, and they are as many as before. -/
def ElementsOnly (before after : Pool σ) : Prop :=
  Sound before.slab.store → Slab.ElementsOnly before.slab after.slab

theorem ElementsOnly.refl (pool : Pool σ) : ElementsOnly pool pool :=
  fun sound => Slab.ElementsOnly.refl sound

theorem ElementsOnly.trans (first second third : Pool σ)
    (before : ElementsOnly first second)
    (after : ElementsOnly second third) : ElementsOnly first third :=
  fun sound => (before sound).trans (after (before sound).storeOnly.sound)

theorem ElementsOnly.of_slab_eq {before after : Pool σ} (same : after.slab = before.slab) :
    ElementsOnly before after := by
  intro sound
  rw [same]
  exact Slab.ElementsOnly.refl sound

theorem announce_elementsOnly (listeners : Pool σ → List Subscription) (phase : Phase)
    (index : Nat) : Preserves ElementsOnly (announce listeners phase index) := by
  intro pool
  exact ElementsOnly.of_slab_eq (slab_announce listeners phase index pool)

theorem editQuietly_elementsOnly (index : Nat) (edit : Edit α) :
    Preserves ElementsOnly (editQuietly index edit : EStateM Fault (Pool σ) α) := by
  intro pool sound
  rcases edit_becomes sound index edit with ⟨contents, becomes⟩
  have elementsOnly := Slab.ElementsOnly.of_becomes becomes
  simp only [editQuietly, onStore_apply]
  cases outcome : Elements.edit index edit pool.slab.store with
  | ok value after =>
      rw [outcome] at elementsOnly
      exact elementsOnly
  | error fault after =>
      rw [outcome] at elementsOnly
      exact elementsOnly

theorem editNotifying_elementsOnly (index : Nat) (edit : Edit α) :
    Preserves ElementsOnly (editNotifying index edit : EStateM Fault (Pool σ) α) := by
  apply Preserves.bind ElementsOnly.trans (announce_elementsOnly _ _ _)
  intro _
  apply Preserves.bind ElementsOnly.trans (editQuietly_elementsOnly index edit)
  intro value
  apply Preserves.bind ElementsOnly.trans (announce_elementsOnly _ _ _)
  intro _
  exact Preserves.pure ElementsOnly.refl value

theorem edit_elementsOnly (notice : Notice) (index : Nat) (edit : Edit α) :
    Preserves ElementsOnly (Pool.edit notice index edit : EStateM Fault (Pool σ) α) := by
  cases notice with
  | quiet => exact editQuietly_elementsOnly index edit
  | told => exact editNotifying_elementsOnly index edit

theorem writeField_elementsOnly (proxy : Proxy) (write : FieldWrite) :
    Preserves ElementsOnly (writeField proxy write : EStateM Fault (Pool σ) Unit) := by
  intro pool
  by_cases own : proxy.owner = pool.id
  · rw [writeField_of_own own]
    cases write.plan (pool.record proxy.index) with
    | ok edit => exact edit_elementsOnly write.notice proxy.index edit pool
    | error fault => exact ElementsOnly.refl pool
  · rw [writeField_of_foreign own]
    exact ElementsOnly.refl pool

theorem swap_elementsOnly (left right : Nat) :
    Preserves ElementsOnly (swap left right : EStateM (Failure Error) (Pool σ) Unit) := by
  apply Preserves.adaptExcept
  intro pool sound
  have elementsOnly := Slab.swap_elementsOnly sound left right
  rw [onSlab_apply]
  cases outcome : Slab.swap left right pool.slab with
  | ok _ after =>
      rw [outcome] at elementsOnly
      exact elementsOnly
  | error failure after =>
      rw [outcome] at elementsOnly
      exact elementsOnly

theorem reserve_storeOnly (count : Nat) (pool : Pool σ) (sound : Sound pool.slab.store) :
    Slab.StoreOnly pool.slab (stateLeft (reserve count pool)).slab := by
  have storeOnly := Slab.reserve_storeOnly sound count
  rw [reserve, stateLeft_adaptExcept, onSlab_apply]
  cases outcome : Slab.reserve count pool.slab with
  | ok _ after =>
      rw [outcome] at storeOnly
      exact storeOnly
  | error failure after =>
      rw [outcome] at storeOnly
      exact storeOnly

theorem faultable_elementsOnly {action : EStateM Fault (Pool σ) Unit}
    (preserves : Preserves ElementsOnly action) : Preserves ElementsOnly (faultable action) := by
  apply Preserves.bind ElementsOnly.trans preserves.adaptExcept
  intro _
  exact Preserves.pure ElementsOnly.refl _

omit [Store σ] [LawfulStore σ] in
theorem slab_unsubscribe (id : ListenerId) (pool : Pool σ) :
    (pool.unsubscribe id).2.slab = pool.slab := by
  unfold unsubscribe
  split
  · rfl
  · split <;> rfl

omit [Store σ] [LawfulStore σ] in
theorem slab_acquire (pool : Pool σ) : pool.acquire.2.slab = pool.slab := by
  unfold acquire
  cases pool.spares <;> rfl

omit [Store σ] [LawfulStore σ] in
theorem slab_release {pool changed : Pool σ} {proxy : Proxy}
    (released : pool.release proxy = .ok changed) : changed.slab = pool.slab := by
  by_cases own : proxy.owner = pool.id
  · rw [release_of_own own] at released
    cases released
    split <;> rfl
  · rw [release_of_foreign own] at released
    cases released

/-- The commands that are there to make records come or go. -/
def Command.isStructural : Command → Bool
  | .create _ | .delete _ | .deleteId _ | .clear => true
  | _ => false

/-- Whether a command asks for room. -/
def Command.reserves : Command → Bool
  | .reserve _ => true
  | _ => false

/-- Commands that neither are there to make records come or go nor ask for room change the
elements alone. -/
theorem perform_elementsOnly {command : Command} (quiet : command.isStructural = false)
    (fixed : command.reserves = false) :
    Preserves ElementsOnly (perform command : EStateM (Failure Error) (Pool σ) Reply) := by
  cases command with
  | create proxy => cases quiet
  | delete proxy => cases quiet
  | deleteId id => cases quiet
  | clear => cases quiet
  | reserve count => cases fixed
  | swap left right =>
      apply Preserves.bind ElementsOnly.trans (swap_elementsOnly left right)
      intro _
      exact Preserves.pure ElementsOnly.refl _
  | write write proxy => exact faultable_elementsOnly (writeField_elementsOnly proxy write)
  | edit notice index edit => exact faultable_elementsOnly (edit_elementsOnly notice index edit)
  | notify index =>
      apply faultable_elementsOnly
      apply Preserves.bind ElementsOnly.trans (announce_elementsOnly _ _ _)
      intro _
      exact announce_elementsOnly _ _ _
  | lookUp id proxy =>
      intro pool
      simp only [perform, bind_apply, get_apply]
      cases pool.lookUp id proxy <;> exact ElementsOnly.refl pool
  | unsubscribe id =>
      intro pool
      exact ElementsOnly.of_slab_eq (slab_unsubscribe id pool)
  | acquire =>
      intro pool
      exact ElementsOnly.of_slab_eq (slab_acquire pool)
  | release proxy =>
      intro pool
      simp only [perform, change]
      cases released : pool.release proxy with
      | ok changed => exact ElementsOnly.of_slab_eq (slab_release released)
      | error rejected => exact ElementsOnly.refl pool
  | subscribe topic listener =>
      intro pool
      cases topic <;> exact ElementsOnly.of_slab_eq rfl
  | _ =>
      intro pool
      exact ElementsOnly.of_slab_eq rfl

/-- Commands that are not there to make records come or go change the store alone. -/
theorem perform_storeOnly {command : Command} (quiet : command.isStructural = false)
    (pool : Pool σ) (sound : Sound pool.slab.store) :
    Slab.StoreOnly pool.slab (stateLeft (perform command pool)).slab := by
  cases fixed : command.reserves with
  | false => exact (perform_elementsOnly quiet fixed pool sound).storeOnly
  | true =>
      cases command with
      | reserve count =>
          simp only [perform, stateLeft_bind_pure]
          exact reserve_storeOnly count pool sound
      | _ => cases fixed

end ElementsOnly

/-! ## Creation and deletion -/

section Lifecycle

variable [Store σ]

/-- What is done with a record once it is allotted. -/
def finishCreation (proxy : Proxy) (index : Nat) :
    EStateM (Failure Error) (Pool σ) Proxy := do
  EStateM.adaptExcept .fault (prepare index)
  EStateM.adaptExcept .fault (announce lifecycleListeners .created index)
  return proxy.pointAt index

theorem create_of_foreign {pool : Pool σ} {proxy : Proxy} (foreign : proxy.owner ≠ pool.id) :
    create proxy pool = .error (.refused (.foreignProxy proxy.owner pool.id)) pool := by
  simp only [create, createAimed, bind_apply, get_apply, checkOwner, if_neg foreign, throw_apply]

theorem step_create_of_ok {pool after : Pool σ} {proxy pointed : Proxy}
    (created : create proxy pool = .ok pointed after) :
    pool.step (.create proxy) = (.ok (.proxy pointed), after) := by
  rw [step_eq, perform, map_apply, created]
  rfl

theorem step_create_of_error {pool left : Pool σ} {proxy : Proxy} {failure : Failure Error}
    (failed : create proxy pool = .error failure left) :
    pool.step (.create proxy) = (.error failure, left) := by
  rw [step_eq, perform, map_apply, failed]
  rfl

theorem step_create_of_foreign {pool : Pool σ} {proxy : Proxy} (foreign : proxy.owner ≠ pool.id) :
    pool.step (.create proxy) = (.error (.refused (.foreignProxy proxy.owner pool.id)), pool) :=
  step_create_of_error (create_of_foreign foreign)

/-- A record is allotted first, and finished only then. -/
theorem create_of_own {pool : Pool σ} {proxy : Proxy} (own : proxy.owner = pool.id) :
    create proxy pool =
      match Slab.allocate pool.slab with
      | .ok index slab => finishCreation proxy index (pool.withSlab slab)
      | .error failure slab => .error (failureOfStore failure) (pool.withSlab slab) := by
  simp only [create, createAimed, bind_apply, get_apply, checkOwner, if_pos own, onPool_apply,
    adaptExcept_apply, onSlab_apply]
  cases Slab.allocate pool.slab with
  | error failure slab => rfl
  | ok index slab =>
      simp only [finishCreation, bind_apply, adaptExcept_apply]
      cases prepare index (pool.withSlab slab) with
      | error fault left => rfl
      | ok _ prepared =>
          dsimp only
          cases announce lifecycleListeners .created index prepared <;> rfl

/-- A creation that succeeds has had a record allotted, prepared and announced. -/
theorem create_ok {pool after : Pool σ} {proxy pointed : Proxy}
    (created : create proxy pool = .ok pointed after) :
    proxy.owner = pool.id ∧ pointed = proxy.pointAt pointed.index ∧ ∃ slab prepared,
      Slab.allocate pool.slab = .ok pointed.index slab ∧
      prepare pointed.index (pool.withSlab slab) = .ok () prepared ∧
      announce lifecycleListeners .created pointed.index prepared = .ok () after := by
  by_cases own : proxy.owner = pool.id
  · rw [create_of_own own] at created
    cases allotted : Slab.allocate pool.slab with
    | error failure slab =>
        rw [allotted] at created
        cases created
    | ok index slab =>
        rw [allotted] at created
        rcases bind_eq_ok_iff.mp created with ⟨_, prepared, readied, created⟩
        rcases bind_eq_ok_iff.mp created with ⟨_, told, announced, created⟩
        cases created
        exact ⟨own, rfl, slab, prepared, rfl, adaptExcept_eq_ok_iff.mp readied,
          adaptExcept_eq_ok_iff.mp announced⟩
  · rw [create_of_foreign own] at created
    cases created

theorem deleteId_of_not_live {pool : Pool σ} {id : Nat} (notLive : pool.isLive id = false) :
    deleteId id pool = .error (.refused (.noSuchElement id)) pool := by
  simp only [deleteId, bind_apply, get_apply, ite_action_apply, notLive, throw_apply]
  rfl

theorem step_deleteId_of_ok {pool after : Pool σ} {id : Nat}
    (deleted : deleteId id pool = .ok () after) :
    pool.step (.deleteId id) = (.ok .done, after) := by
  rw [step_eq, perform, bind_apply, deleted]
  rfl

theorem step_deleteId_of_error {pool left : Pool σ} {id : Nat} {failure : Failure Error}
    (failed : deleteId id pool = .error failure left) :
    pool.step (.deleteId id) = (.error failure, left) := by
  rw [step_eq, perform, bind_apply, failed]
  rfl

theorem step_deleteId_of_not_live {pool : Pool σ} {id : Nat}
    (notLive : pool.isLive id = false) :
    pool.step (.deleteId id) = (.error (.refused (.noSuchElement id)), pool) :=
  step_deleteId_of_error (deleteId_of_not_live notLive)

/-- The listeners are told of a live record before it is taken back. -/
theorem deleteId_of_live {pool : Pool σ} {id : Nat} (isLive : pool.isLive id = true) :
    deleteId id pool =
      match announce lifecycleListeners .beforeDelete id pool with
      | .ok _ told =>
          match Slab.free id told.slab with
          | .ok _ slab => .ok () (told.withSlab slab)
          | .error error slab => .error (refusalOfStore error) (told.withSlab slab)
      | .error fault told => .error (.fault fault) told := by
  simp only [deleteId, bind_apply, get_apply, ite_action_apply, if_pos isLive,
    adaptExcept_apply]
  cases announce lifecycleListeners .beforeDelete id pool with
  | error fault told => rfl
  | ok _ told =>
      simp only [onSlab_apply]
      cases Slab.free id told.slab <;> rfl

/-- A live record of which the listeners were told is taken back, without fail. -/
theorem deleteId_takesBack {pool : Pool σ} {id : Nat} (isLive : pool.isLive id = true) :
    deleteId id pool =
      match announce lifecycleListeners .beforeDelete id pool with
      | .ok _ told => .ok () (told.withSlab (pool.slab.takeBack id))
      | .error fault told => .error (.fault fault) told := by
  have told := slab_announce lifecycleListeners .beforeDelete id pool
  rw [deleteId_of_live isLive]
  cases announced : announce lifecycleListeners .beforeDelete id pool with
  | error fault left => rfl
  | ok _ left =>
      rw [announced, stateLeft_ok] at told
      have stillLive : left.slab.isLive id = true := by
        rw [told]
        exact isLive
      simp only [Slab.free_of_live stillLive]
      rw [told]

/-- A deletion that fails although the record is live fails in a listener. -/
theorem deleteId_error {pool left : Pool σ} {id : Nat} {failure : Failure Error}
    (isLive : pool.isLive id = true) (failed : deleteId id pool = .error failure left) :
    ∃ fault, failure = .fault fault ∧
      announce lifecycleListeners .beforeDelete id pool = .error fault left := by
  rw [deleteId_takesBack isLive] at failed
  cases announced : announce lifecycleListeners .beforeDelete id pool with
  | ok _ told =>
      rw [announced] at failed
      cases failed
  | error fault told =>
      rw [announced] at failed
      cases failed
      exact ⟨fault, rfl, rfl⟩

/-- A deletion that succeeds has had a live record announced and taken back. -/
theorem deleteId_ok {pool after : Pool σ} {id : Nat} (deleted : deleteId id pool = .ok () after) :
    pool.isLive id = true ∧ ∃ told,
      announce lifecycleListeners .beforeDelete id pool = .ok () told ∧
      after = told.withSlab (pool.slab.takeBack id) := by
  by_cases isLive : pool.isLive id = true
  · rw [deleteId_takesBack isLive] at deleted
    cases announced : announce lifecycleListeners .beforeDelete id pool with
    | error fault left =>
        rw [announced] at deleted
        cases deleted
    | ok _ told =>
        rw [announced] at deleted
        cases deleted
        exact ⟨isLive, told, rfl, rfl⟩
  · rw [deleteId_of_not_live (Bool.eq_false_iff.mpr isLive)] at deleted
    cases deleted

theorem delete_of_foreign {pool : Pool σ} {proxy : Proxy} (foreign : proxy.owner ≠ pool.id) :
    delete proxy pool = .error (.refused (.foreignProxy proxy.owner pool.id)) pool := by
  simp only [delete, bind_apply, get_apply, checkOwner, if_neg foreign, throw_apply]

theorem delete_of_own {pool : Pool σ} {proxy : Proxy} (own : proxy.owner = pool.id) :
    delete proxy pool = deleteId proxy.index pool := by
  simp only [delete, bind_apply, get_apply, checkOwner, if_pos own]

theorem step_delete_of_foreign {pool : Pool σ} {proxy : Proxy} (foreign : proxy.owner ≠ pool.id) :
    pool.step (.delete proxy) = (.error (.refused (.foreignProxy proxy.owner pool.id)), pool) := by
  rw [step_eq, perform, bind_apply, delete_of_foreign foreign]
  rfl

theorem step_delete_of_own {pool : Pool σ} {proxy : Proxy} (own : proxy.owner = pool.id) :
    pool.step (.delete proxy) = pool.step (.deleteId proxy.index) := by
  simp only [step_eq, perform, bind_apply, delete_of_own own]

/-- A record that was allotted is refused no more. -/
theorem finishCreation_error {pool left : Pool σ} {proxy : Proxy} {index : Nat}
    {failure : Failure Error} (failed : finishCreation proxy index pool = .error failure left) :
    ∃ fault, failure = .fault fault := by
  simp only [finishCreation, bind_apply, adaptExcept_apply] at failed
  cases prepared : prepare index pool with
  | error fault middle =>
      rw [prepared] at failed
      cases failed
      exact ⟨fault, rfl⟩
  | ok _ middle =>
      rw [prepared] at failed
      simp only at failed
      cases announced : announce lifecycleListeners .created index middle with
      | error fault final =>
          rw [announced] at failed
          cases failed
          exact ⟨fault, rfl⟩
      | ok _ final =>
          rw [announced] at failed
          cases failed

/-- A creation that is refused has changed the slab alone. -/
theorem create_refused {pool left : Pool σ} {proxy : Proxy} {error : Error}
    (refused : create proxy pool = .error (.refused error) left) :
    left = pool.withSlab left.slab := by
  by_cases own : proxy.owner = pool.id
  · rw [create_of_own own] at refused
    cases allotted : Slab.allocate pool.slab with
    | error failure slab =>
        rw [allotted] at refused
        injection refused with _ left_eq
        rw [← left_eq]
        rfl
    | ok index slab =>
        rw [allotted] at refused
        rcases finishCreation_error refused with ⟨fault, same⟩
        cases same
  · rw [create_of_foreign own] at refused
    cases refused
    rfl

variable [LawfulStore σ]

theorem prepare_elementsOnly (index : Nat) :
    Preserves ElementsOnly (prepare index : EStateM Fault (Pool σ) Unit) := by
  intro pool
  simp only [prepare, bind_apply, get_apply]
  cases pool.initializer with
  | none => exact ElementsOnly.refl pool
  | some initializer => exact editQuietly_elementsOnly index (initializer index) pool

theorem finishCreation_elementsOnly (proxy : Proxy) (index : Nat) :
    Preserves ElementsOnly
      (finishCreation proxy index : EStateM (Failure Error) (Pool σ) Proxy) := by
  apply Preserves.bind ElementsOnly.trans
  · exact (prepare_elementsOnly index).adaptExcept
  · intro _
    apply Preserves.bind ElementsOnly.trans
    · exact Preserves.adaptExcept (announce_elementsOnly _ _ _)
    · intro _
      exact Preserves.pure ElementsOnly.refl _

end Lifecycle

end RecordPool.Pool
