import RecordPool.Proofs.IndexSet.Walk
import RecordPool.Proofs.Pool.Frame

/-!
# Records that come and go

The version of a pool counts the commands that make records come or go.  A creation is one
as soon as a record is allotted, also when its initializer or a listener then ends in a
fault; a deletion is one when it is answered, and clearing always is.  Every other command
leaves the version and the live records as they are.
-/

namespace RecordPool.Pool

variable {σ : Type} [Store σ]

/-- Whether a command makes records come or go.  A creation that ends in a fault does if the
fault comes after a record was allotted, so that one more is live. -/
def restructures (pool : Pool σ) : Command → Bool
  | .create proxy =>
      match pool.step (.create proxy) with
      | (.ok _, _) => true
      | (.error (.refused _), _) => false
      | (.error (.fault _), after) => decide (pool.liveCount < after.liveCount)
  | .delete proxy => (pool.step (.delete proxy)).1.isOk
  | .deleteId id => (pool.step (.deleteId id)).1.isOk
  | .clear => true
  | _ => false

variable [LawfulStore σ] {pool : Pool σ} {live : Finset Nat}

theorem isLive_iff (orderly : pool.slab.Orderly live) {index : Nat} :
    pool.isLive index = true ↔ index ∈ live := by
  rw [isLive, orderly.account.isLive_eq, decide_eq_true_iff]

theorem liveCount_eq (orderly : pool.slab.Orderly live) : pool.liveCount = live.card :=
  orderly.account.represents.count_eq

theorem liveIds_eq (orderly : pool.slab.Orderly live) : pool.liveIds = live.sort :=
  orderly.account.represents.toList_eq

omit [Store σ] [LawfulStore σ] in
theorem mem_liveIds_iff {id : Nat} : id ∈ pool.liveIds ↔ pool.isLive id = true :=
  IndexSet.mem_toList_iff

/-- A creation either has a record allotted, and is not refused then, or fails without. -/
theorem create_cases (orderly : pool.slab.Orderly live) (proxy : Proxy) :
    (∃ index, index ∉ live ∧
      (stateLeft (create proxy pool)).slab.version = pool.slab.version + 1 ∧
      (stateLeft (create proxy pool)).slab.Orderly (insert index live) ∧
      ∀ error left, create proxy pool ≠ .error (.refused error) left) ∨
    ∃ failure left, create proxy pool = .error failure left ∧
      Slab.StoreOnly pool.slab left.slab := by
  by_cases own : proxy.owner = pool.id
  · have kept := orderly.allocate
    rw [create_of_own own]
    cases allotted : Slab.allocate pool.slab with
    | error failure slab =>
        rw [allotted] at kept
        exact Or.inr ⟨_, _, rfl, kept⟩
    | ok index slab =>
        rw [allotted] at kept
        rcases kept with ⟨notLive, version, orderlyAfter⟩
        have finished :=
          (finishCreation_elementsOnly proxy index (pool.withSlab slab) orderlyAfter.sound).storeOnly
        left
        refine ⟨index, notLive, ?_, orderlyAfter.storeOnly finished, ?_⟩
        · rw [← version]
          exact finished.version_eq
        · intro error left refused
          rcases finishCreation_error refused with ⟨fault, same⟩
          cases same
  · rw [create_of_foreign own]
    exact Or.inr ⟨_, _, rfl, Slab.StoreOnly.refl orderly.sound⟩

/-- Whether a computation on a pool takes a live record back, or else fails without a change
of the slab. -/
def Deletes (action : EStateM (Failure Error) (Pool σ) Unit) (pool : Pool σ) : Prop :=
  (∃ id after, action pool = .ok () after ∧ pool.isLive id = true ∧
    after.slab = pool.slab.takeBack id) ∨
  ∃ failure left, action pool = .error failure left ∧ left.slab = pool.slab

omit [LawfulStore σ] in
theorem deleteId_deletes (id : Nat) (pool : Pool σ) : Deletes (deleteId id) pool := by
  unfold Deletes
  by_cases isLive : pool.isLive id = true
  · have told := slab_announce lifecycleListeners .beforeDelete id pool
    rw [deleteId_takesBack isLive]
    cases announced : announce lifecycleListeners .beforeDelete id pool with
    | error fault left =>
        rw [announced] at told
        exact Or.inr ⟨_, _, rfl, told⟩
    | ok _ left => exact Or.inl ⟨id, _, rfl, isLive, rfl⟩
  · rw [deleteId_of_not_live (Bool.eq_false_iff.mpr isLive)]
    exact Or.inr ⟨_, _, rfl, rfl⟩

omit [LawfulStore σ] in
theorem delete_deletes (proxy : Proxy) (pool : Pool σ) : Deletes (delete proxy) pool := by
  by_cases own : proxy.owner = pool.id
  · have deletes := deleteId_deletes proxy.index pool
    unfold Deletes at deletes ⊢
    rw [delete_of_own own]
    exact deletes
  · exact Or.inr ⟨_, _, delete_of_foreign own, rfl⟩

/-- A slab that follows from another in a step in which records came or went. -/
def Restructured (before after : Slab σ) : Prop :=
  after.version = before.version + 1 ∧ ∃ live, after.Orderly live

/-- A creation counts exactly if a record is allotted. -/
theorem creation_cases (orderly : pool.slab.Orderly live) (proxy : Proxy) :
    (pool.restructures (.create proxy) = true ∧
        Restructured pool.slab (pool.step (.create proxy)).2.slab) ∨
      (pool.restructures (.create proxy) = false ∧
        Slab.StoreOnly pool.slab (pool.step (.create proxy)).2.slab) := by
  have liveCount := liveCount_eq orderly
  simp only [restructures, step_eq, perform, map_apply]
  rcases create_cases orderly proxy with
    ⟨index, notLive, version, orderlyAfter, notRefused⟩ | ⟨failure, left, failed, storeOnly⟩
  · left
    have liveCountAfter : (stateLeft (create proxy pool)).liveCount = live.card + 1 := by
      rw [← Finset.card_insert_of_notMem notLive]
      exact liveCount_eq orderlyAfter
    cases created : create proxy pool with
    | ok pointed after =>
        rw [created] at version orderlyAfter
        exact ⟨rfl, version, _, orderlyAfter⟩
    | error failure after =>
        rw [created] at version orderlyAfter liveCountAfter
        cases failure with
        | refused error => exact absurd created (notRefused error after)
        | fault fault =>
            refine ⟨?_, version, _, orderlyAfter⟩
            simp only [answerOf, stateLeft_error] at liveCountAfter ⊢
            rw [decide_eq_true_iff, liveCount, liveCountAfter]
            exact Nat.lt_succ_self _
  · right
    have liveCountAfter : left.liveCount = pool.liveCount :=
      congrArg IndexSet.count storeOnly.live_eq
    rw [failed]
    cases failure with
    | refused error => exact ⟨rfl, storeOnly⟩
    | fault fault =>
        refine ⟨?_, storeOnly⟩
        simp only [answerOf, stateLeft_error]
        rw [decide_eq_false_iff_not, liveCountAfter]
        exact Nat.lt_irrefl _

/-- A command for a deletion counts exactly if it is answered. -/
theorem deletion_cases (orderly : pool.slab.Orderly live)
    {action : EStateM (Failure Error) (Pool σ) Unit} (deletes : Deletes action pool) :
    ((answerOf ((action >>= fun _ => pure Reply.done) pool)).isOk = true ∧
        Restructured pool.slab (stateLeft (action pool)).slab) ∨
      ((answerOf ((action >>= fun _ => pure Reply.done) pool)).isOk = false ∧
        Slab.StoreOnly pool.slab (stateLeft (action pool)).slab) := by
  rw [bind_apply]
  rcases deletes with ⟨id, after, done, isLive, taken⟩ | ⟨failure, left, failed, same⟩
  · left
    have member : id ∈ live := (isLive_iff orderly).mp isLive
    rw [done]
    refine ⟨rfl, ?_⟩
    rw [stateLeft_ok, taken]
    exact ⟨rfl, _, orderly.takeBack member⟩
  · right
    rw [failed]
    refine ⟨rfl, ?_⟩
    rw [stateLeft_error, same]
    exact Slab.StoreOnly.refl orderly.sound

theorem step_storeOnly (orderly : pool.slab.Orderly live) {command : Command}
    (quiet : command.isStructural = false) :
    Slab.StoreOnly pool.slab (pool.step command).2.slab := by
  rw [step_eq]
  exact perform_storeOnly quiet pool orderly.sound

/-- Every command either makes records come or go, which counts up the version, or leaves
the account of indices as it is. -/
theorem step_cases (orderly : pool.slab.Orderly live) (command : Command) :
    (pool.restructures command = true ∧
        Restructured pool.slab (pool.step command).2.slab) ∨
      (pool.restructures command = false ∧
        Slab.StoreOnly pool.slab (pool.step command).2.slab) := by
  cases command with
  | create proxy => exact creation_cases orderly proxy
  | delete proxy =>
      simp only [restructures, step_eq, perform, stateLeft_bind_pure]
      exact deletion_cases orderly (delete_deletes proxy pool)
  | deleteId id =>
      simp only [restructures, step_eq, perform, stateLeft_bind_pure]
      exact deletion_cases orderly (deleteId_deletes id pool)
  | clear => exact Or.inl ⟨rfl, rfl, _, orderly.clear⟩
  | _ => exact Or.inr ⟨rfl, step_storeOnly orderly rfl⟩

theorem step_orderly (orderly : pool.slab.Orderly live) (command : Command) :
    ∃ live', (pool.step command).2.slab.Orderly live' := by
  rcases step_cases orderly command with ⟨-, -, restructured⟩ | ⟨-, storeOnly⟩
  · exact restructured
  · exact ⟨live, orderly.storeOnly storeOnly⟩

theorem run_orderly (orderly : pool.slab.Orderly live) (commands : List Command) :
    ∃ live', (pool.run commands).2.slab.Orderly live' := by
  induction commands generalizing pool live with
  | nil => exact ⟨live, orderly⟩
  | cons command rest ih =>
      rcases step_orderly orderly command with ⟨middle, orderlyAfter⟩
      exact ih orderlyAfter

end RecordPool.Pool
