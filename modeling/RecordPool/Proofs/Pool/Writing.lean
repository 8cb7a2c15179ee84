import RecordPool.Proofs.Pool.FieldPatch
import RecordPool.Proofs.Pool.Listening
import RecordPool.Proofs.Pool.Opening
import RecordPool.Proofs.Pool.SlabSteps
import RecordPool.Proofs.Pool.Telling

/-!
# Writing to the records of a pool

A pool whose elements are as long as its records has a record of that length at every index
below its capacity.  An edit that returns on it changes that record and, if listeners are
told, the journal.  Only a listener can end such an edit.
-/

namespace RecordPool.Pool

open LawfulStore

variable {σ : Type} [Store σ] [LawfulStore σ] {pool : Pool σ}

/-- The elements of the store are sound and as long as the records. -/
structure Seated (pool : Pool σ) : Prop where
  sound : Sound pool.slab.store
  elementSize_eq : Elements.elementSize pool.slab.store = pool.layout.recordSize

theorem seated_blank {id : PoolId} {layout : Layout} {store : σ} {config : Config}
    (sound : Sound store) (fits : Elements.elementSize store = layout.recordSize) :
    (blank id layout store config).Seated :=
  ⟨sound, fits⟩

theorem Seated.run (seated : pool.Seated) {live : Finset Nat} (orderly : pool.slab.Orderly live)
    (commands : List Command) : (pool.run commands).2.Seated := by
  have continues := run_continues orderly commands
  constructor
  · exact continues.sound
  · rw [continues.elementSize_eq, run_layout]
    exact seated.elementSize_eq

theorem Seated.size_shown (seated : pool.Seated) (index : Nat) :
    (pool.shown index).contents.size = pool.layout.recordSize :=
  (size_contents seated.sound index).trans seated.elementSize_eq

theorem Seated.record_eq (seated : pool.Seated) {index : Nat} (inside : index < pool.capacity) :
    pool.record index = .ok (pool.shown index) :=
  record_of_inside seated.sound inside

/-- Pools of one capacity whose elements at an index have the same contents hold the same record
there, if they hold any. -/
theorem record_congr {left right : Pool σ} (seated : left.Seated) (seatedRight : right.Seated)
    (capacity_eq : left.capacity = right.capacity) {index : Nat}
    (contents_eq : Elements.contents left.slab.store index =
      Elements.contents right.slab.store index) :
    left.record index = right.record index := by
  have size : Elements.size left.slab.store = Elements.size right.slab.store := capacity_eq
  have same : Elements.element left.slab.store index =
      Elements.element right.slab.store index := by
    rw [element_eq seated.sound, element_eq seatedRight.sound, size, contents_eq]
  rw [record, same, record]

/-- Two pools have the same records, and the same indices without one. -/
def SameRecords (before after : Pool σ) : Prop :=
  ∀ index, after.record index = before.record index

/-! ## Edited pools -/

/-- What an edit of one record makes of a pool: that record holds other contents, and of the
rest at most the journal is changed. -/
def Edited (before after : Pool σ) (index : Nat) (contents : Buffer) : Prop :=
  ∃ store, after = (before.withSlab (before.slab.withStore store)).withJournal after.journal ∧
    Store.Becomes Sound Affords before.slab.store store before.capacity
      (Function.update (Elements.contents before.slab.store) index contents)

namespace Edited

variable {before after : Pool σ} {index : Nat} {contents : Buffer}

theorem id_eq (edited : Edited before after index contents) : after.id = before.id := by
  rcases edited with ⟨store, eq, -⟩
  rw [eq]
  rfl

theorem layout_eq (edited : Edited before after index contents) :
    after.layout = before.layout := by
  rcases edited with ⟨store, eq, -⟩
  rw [eq]
  rfl

theorem changeListeners_eq (edited : Edited before after index contents) :
    after.changeListeners = before.changeListeners := by
  rcases edited with ⟨store, eq, -⟩
  rw [eq]
  rfl

theorem capacity_eq (edited : Edited before after index contents) :
    after.capacity = before.capacity := by
  rcases edited with ⟨store, eq, becomes⟩
  rw [eq]
  exact becomes.size_eq

theorem seated (edited : Edited before after index contents) (seated : before.Seated) :
    after.Seated := by
  rcases edited with ⟨store, eq, becomes⟩
  rw [eq]
  exact ⟨becomes.sound, becomes.elementSize_eq.trans seated.elementSize_eq⟩

theorem contents_eq (edited : Edited before after index contents) :
    Elements.contents after.slab.store =
      Function.update (Elements.contents before.slab.store) index contents := by
  rcases edited with ⟨store, eq, becomes⟩
  rw [eq]
  exact funext becomes.contents_eq

theorem withJournal (edited : Edited before after index contents) (journal : Journal) :
    Edited before (after.withJournal journal) index contents := by
  rcases edited with ⟨store, eq, becomes⟩
  refine ⟨store, ?_, becomes⟩
  rw [eq]
  rfl

theorem refl (seated : pool.Seated) (index : Nat) :
    Edited pool pool index (pool.shown index).contents := by
  have same : Function.update (Elements.contents pool.slab.store) index
      (pool.shown index).contents = Elements.contents pool.slab.store :=
    Function.update_eq_self index _
  refine ⟨pool.slab.store, rfl, ?_⟩
  rw [same]
  exact becomes_self seated.sound

/-- Of two edits of a record the later one counts. -/
theorem trans {final : Pool σ} {last : Buffer} (first : Edited before after index contents)
    (second : Edited after final index last) : Edited before final index last := by
  have capacity := first.capacity_eq
  have overwritten := first.contents_eq
  rcases first with ⟨middle, after_eq, becomes⟩
  rcases second with ⟨store, final_eq, becomesNext⟩
  rw [capacity, overwritten, Function.update_idem, after_eq] at becomesNext
  refine ⟨store, ?_, becomes.trans becomesNext⟩
  rw [final_eq, after_eq]
  rfl

theorem shown_self (edited : Edited before after index contents) :
    after.shown index = ⟨index, contents⟩ := by
  rw [shown, edited.contents_eq, Function.update_self]

theorem record_other (edited : Edited before after index contents) (seated : before.Seated)
    {other : Nat} (different : other ≠ index) : after.record other = before.record other := by
  refine record_congr (edited.seated seated) seated edited.capacity_eq ?_
  rw [edited.contents_eq, Function.update_of_ne different]

/-- Pools that one edit can make of a pool have the same records. -/
theorem sameRecords {other : Pool σ} (edited : Edited before after index contents)
    (editedOther : Edited before other index contents) (seated : before.Seated) :
    SameRecords after other := by
  intro place
  refine record_congr (editedOther.seated seated) (edited.seated seated) ?_ ?_
  · rw [editedOther.capacity_eq, edited.capacity_eq]
  · rw [editedOther.contents_eq, edited.contents_eq]

end Edited

/-! ## How edits end -/

/-- A change listener ends in a fault when it is told of a record. -/
def ListenerFaults (pool : Pool σ) (record : Record) (fault : Fault) : Prop :=
  ∃ subscription ∈ pool.changeListeners, ∃ phase, subscription.listener.hears phase = true ∧
    subscription.listener.look record = .error fault

/-- A change listener ends in a fault when it is told of a record at a phase. -/
def TellingFaults (pool : Pool σ) (phase : Phase) (record : Record) (fault : Fault) : Prop :=
  ∃ subscription ∈ pool.changeListeners, subscription.listener.hears phase = true ∧
    subscription.listener.look record = .error fault

omit [Store σ] [LawfulStore σ] in
theorem TellingFaults.listenerFaults {phase : Phase} {record : Record} {fault : Fault}
    (faults : TellingFaults pool phase record fault) : ListenerFaults pool record fault := by
  obtain ⟨subscription, among, hears, looked⟩ := faults
  exact ⟨subscription, among, phase, hears, looked⟩

/-- The ways in which an edit of a record comes to end in a fault. -/
inductive EditBreaks (notice : Notice) (pool : Pool σ) (index : Nat) (edit : Edit Unit)
    (fault : Fault) (final : Pool σ) : Prop where
  /-- It has not come to the edit: there is no record, or a listener that is told of it ends in
  the fault. -/
  | beforehand (journalOnly : final = pool.withJournal final.journal)
      (cause : pool.capacity ≤ index ∨
        notice = .told ∧ TellingFaults pool .beforeChange (pool.shown index) fault)
  /-- The edit itself ends in the fault. -/
  | within {left : Buffer} (ended : edit.run (pool.shown index).contents = .error fault left)
      (edited : Edited pool final index left)
  /-- The record is edited, and a listener that is told of that ends in the fault. -/
  | afterwards {left : Buffer} (told : notice = .told)
      (returned : edit.run (pool.shown index).contents = .ok () left)
      (edited : Edited pool final index left)
      (telling : TellingFaults pool .afterChange ⟨index, left⟩ fault)

section Outcomes

variable {index : Nat} {edit : Edit Unit} {fault : Fault} {final : Pool σ} {notice : Notice}

/-- A quiet edit of a record that is there ends as it ends on the record. -/
theorem editQuietly_of_inside (sound : Sound pool.slab.store) (inside : index < pool.capacity)
    (edit : Edit Unit) :
    ∃ after, editQuietly index edit pool =
        withState after (edit.run (pool.shown index).contents) ∧
      Edited pool after index (contentsLeft (edit.run (pool.shown index).contents)) := by
  rcases edit_inside sound inside edit with ⟨store, ran, becomes⟩
  refine ⟨pool.withSlab (pool.slab.withStore store), ?_, store, rfl, becomes⟩
  simp only [editQuietly, onStore_apply, ran]
  change _ = withState _ (edit.run (Elements.contents pool.slab.store index))
  cases edit.run (Elements.contents pool.slab.store index) <;> rfl

theorem editQuietly_of_outside (sound : Sound pool.slab.store) (outside : pool.capacity ≤ index)
    (edit : Edit Unit) :
    editQuietly index edit pool = .error (.elementOutOfBounds index pool.capacity) pool := by
  rw [editQuietly, onStore_apply, edit_outside sound outside]
  rfl

theorem editQuietly_ok (sound : Sound pool.slab.store)
    (done : editQuietly index edit pool = .ok () final) :
    index < pool.capacity ∧ ∃ left, edit.run (pool.shown index).contents = .ok () left ∧
      Edited pool final index left := by
  by_cases inside : index < pool.capacity
  · obtain ⟨after, ran, edited⟩ := editQuietly_of_inside sound inside edit
    rw [done] at ran
    cases outcome : edit.run (pool.shown index).contents with
    | ok _ left =>
        rw [outcome] at ran edited
        cases ran
        exact ⟨inside, left, rfl, edited⟩
    | error fault left =>
        rw [outcome] at ran
        cases ran
  · rw [editQuietly_of_outside sound (Nat.le_of_not_lt inside)] at done
    cases done

theorem editQuietly_error (sound : Sound pool.slab.store)
    (ended : editQuietly index edit pool = .error fault final) :
    EditBreaks notice pool index edit fault final := by
  by_cases inside : index < pool.capacity
  · obtain ⟨after, ran, edited⟩ := editQuietly_of_inside sound inside edit
    rw [ended] at ran
    cases outcome : edit.run (pool.shown index).contents with
    | ok _ left =>
        rw [outcome] at ran
        cases ran
    | error found left =>
        rw [outcome] at ran edited
        cases ran
        exact .within outcome edited
  · have outside := Nat.le_of_not_lt inside
    rw [editQuietly_of_outside sound outside] at ended
    cases ended
    exact .beforehand rfl (Or.inl outside)

omit [LawfulStore σ] in
theorem journalOnly_of_announce_error {listeners : Pool σ → List Subscription} {phase : Phase}
    (ended : announce listeners phase index pool = .error fault final) :
    final = pool.withJournal final.journal := by
  have journalOnly := stateLeft_announce listeners phase index pool
  rwa [ended] at journalOnly

theorem tellBefore_error (seated : pool.Seated)
    (ended : tellBefore index pool = .error fault final) :
    EditBreaks .told pool index edit fault final := by
  refine .beforehand (journalOnly_of_announce_error ended) ?_
  by_cases inside : index < pool.capacity
  · exact Or.inr ⟨rfl, announce_error (seated.record_eq inside) ended⟩
  · exact Or.inl (Nat.le_of_not_lt inside)

/-- When the record is edited, only a listener can end the telling of it. -/
theorem Edited.tellAfter_error {changed : Pool σ} {left : Buffer} (seated : pool.Seated)
    (inside : index < pool.capacity) (edited : Edited pool changed index left)
    (ended : tellAfter index changed = .error fault final) :
    Edited pool final index left ∧ TellingFaults pool .afterChange ⟨index, left⟩ fault := by
  have found := (edited.seated seated).record_eq (edited.capacity_eq ▸ inside)
  rw [edited.shown_self] at found
  have telling := announce_error found ended
  rw [edited.changeListeners_eq] at telling
  refine ⟨?_, telling⟩
  rw [journalOnly_of_announce_error ended]
  exact edited.withJournal _

/-- What was told before does not change how an edit ends in a fault. -/
theorem EditBreaks.of_withJournal (journal : Journal)
    (breaks : EditBreaks notice (pool.withJournal journal) index edit fault final) :
    EditBreaks notice pool index edit fault final := by
  cases breaks with
  | beforehand journalOnly cause => exact .beforehand journalOnly cause
  | within ended edited => exact .within ended edited
  | afterwards told returned edited telling => exact .afterwards told returned edited telling

theorem Seated.withJournal (seated : pool.Seated) (journal : Journal) :
    (pool.withJournal journal).Seated :=
  ⟨seated.sound, seated.elementSize_eq⟩

/-- An edit that returns in a pool does so on the record. -/
theorem edit_ok (seated : pool.Seated) (done : Pool.edit notice index edit pool = .ok () final) :
    ∃ left, edit.run (pool.shown index).contents = .ok () left ∧ Edited pool final index left := by
  cases notice with
  | quiet => exact (editQuietly_ok seated.sound done).2
  | told =>
      rcases bind_eq_ok_iff.mp done with ⟨_, announced, before, done⟩
      rcases bind_eq_ok_iff.mp done with ⟨_, changed, during, done⟩
      rcases bind_eq_ok_iff.mp done with ⟨_, told, after, done⟩
      cases done
      obtain ⟨journal, rfl⟩ : ∃ journal, announced = pool.withJournal journal :=
        ⟨_, (announce_ok before).1⟩
      obtain ⟨-, left, returned, edited⟩ :=
        editQuietly_ok (seated.withJournal journal).sound during
      refine ⟨left, returned, ?_⟩
      rw [(announce_ok after).1]
      exact edited.withJournal _

theorem edit_error (seated : pool.Seated)
    (ended : Pool.edit notice index edit pool = .error fault final) :
    EditBreaks notice pool index edit fault final := by
  cases notice with
  | quiet => exact editQuietly_error seated.sound ended
  | told =>
      simp only [Pool.edit, editNotifying, bind_apply] at ended
      cases before : tellBefore index pool with
      | error found left =>
          rw [before] at ended
          cases ended
          exact tellBefore_error seated before
      | ok _ announced =>
          rw [before] at ended
          -- From here on the pool differs from the one before in the journal.
          obtain ⟨journal, rfl⟩ : ∃ journal, announced = pool.withJournal journal :=
            ⟨_, (announce_ok before).1⟩
          apply EditBreaks.of_withJournal journal
          have seatedTold := seated.withJournal journal
          cases during : editQuietly index edit (pool.withJournal journal) with
          | error found left =>
              simp only [during] at ended
              cases ended
              exact editQuietly_error seatedTold.sound during
          | ok _ changed =>
              simp only [during] at ended
              obtain ⟨inside, left, returned, edited⟩ := editQuietly_ok seatedTold.sound during
              cases after : tellAfter index changed with
              | ok _ told =>
                  rw [after] at ended
                  cases ended
              | error found told =>
                  rw [after] at ended
                  cases ended
                  obtain ⟨editedFinally, telling⟩ := edited.tellAfter_error seatedTold inside after
                  exact .afterwards rfl returned editedFinally telling

end Outcomes

/-- An edit that returns on the record does so in the pool, unless it is told to a change
listener that ends in a fault when shown the record as it was or as it is. -/
theorem edit_of_returns (seated : pool.Seated) {index : Nat} (inside : index < pool.capacity)
    {edit : Edit Unit} {left : Buffer}
    (returns : edit.run (pool.shown index).contents = .ok () left) (notice : Notice) :
    (∃ after, Pool.edit notice index edit pool = .ok () after ∧ Edited pool after index left) ∨
      notice = .told ∧ ∃ fault final, Pool.edit notice index edit pool = .error fault final ∧
        ∃ record, (record = pool.shown index ∨ record = ⟨index, left⟩) ∧
          ListenerFaults pool record fault := by
  cases outcome : Pool.edit notice index edit pool with
  | ok _ after =>
      obtain ⟨same, returned, edited⟩ := edit_ok seated outcome
      rw [returns] at returned
      cases returned
      exact Or.inl ⟨after, rfl, edited⟩
  | error fault final =>
      cases edit_error seated outcome with
      | beforehand _ cause =>
          rcases cause with outside | ⟨told, telling⟩
          · exact absurd inside (Nat.not_lt.mpr outside)
          · exact Or.inr ⟨told, fault, final, rfl, _, Or.inl rfl, telling.listenerFaults⟩
      | within ended _ =>
          rw [returns] at ended
          cases ended
      | afterwards told returned _ telling =>
          rw [returns] at returned
          cases returned
          exact Or.inr ⟨told, fault, final, rfl, _, Or.inr rfl, telling.listenerFaults⟩

/-- An edit that returns on the record leaves it so, or as it was. -/
theorem edited_of_returns (seated : pool.Seated) {index : Nat} {edit : Edit Unit} {left : Buffer}
    (returns : edit.run (pool.shown index).contents = .ok () left) (notice : Notice) :
    Edited pool (stateLeft (Pool.edit notice index edit pool)) index left ∨
      Edited pool (stateLeft (Pool.edit notice index edit pool)) index
        (pool.shown index).contents := by
  cases outcome : Pool.edit notice index edit pool with
  | ok _ after =>
      obtain ⟨same, returned, edited⟩ := edit_ok seated outcome
      rw [returns] at returned
      cases returned
      exact Or.inl edited
  | error fault final =>
      rw [stateLeft_error]
      cases edit_error seated outcome with
      | beforehand journalOnly _ =>
          rw [journalOnly]
          exact Or.inr ((Edited.refl seated index).withJournal _)
      | within ended _ =>
          rw [returns] at ended
          cases ended
      | afterwards told returned edited _ =>
          rw [returns] at returned
          cases returned
          exact Or.inl edited

/-- A write that fits the records of a pool is carried out at every index below the capacity,
unless it is told to a change listener that ends in a fault when shown a record of that
index. -/
theorem writeField_of_fits (seated : pool.Seated) (bounded : pool.layout.recordSize < Address.limit)
    {proxy : Proxy} (own : proxy.owner = pool.id) (inside : proxy.index < pool.capacity)
    {write : FieldWrite} (fits : write.Fits (.inside pool.layout.recordSize)) :
    ∃ edit left, write.plan (pool.record proxy.index) = .ok edit ∧
      edit.run (pool.shown proxy.index).contents = .ok () left ∧
      ((∃ after, writeField proxy write pool = .ok () after ∧
          Edited pool after proxy.index left) ∨
        write.notice = .told ∧ ∃ fault final, writeField proxy write pool = .error fault final ∧
          ∃ record, (record = pool.shown proxy.index ∨ record = ⟨proxy.index, left⟩) ∧
            ListenerFaults pool record fault) := by
  have size := seated.size_shown proxy.index
  obtain ⟨edit, planned, returns⟩ := FieldWrite.plan_returns bounded fits size
  obtain ⟨left, done⟩ := returns _ size
  rw [← seated.record_eq inside] at planned
  refine ⟨edit, left, planned, done, ?_⟩
  rw [writeField_of_own own, planned]
  exact edit_of_returns seated inside done write.notice

/-- A write that fits and knows its bytes beforehand puts them at their place. -/
theorem writeField_of_patch (seated : pool.Seated)
    (bounded : pool.layout.recordSize < Address.limit) {proxy : Proxy}
    (own : proxy.owner = pool.id) (inside : proxy.index < pool.capacity) {write : FieldWrite}
    (fits : write.Fits (.inside pool.layout.recordSize)) {start : Nat} {bytes : Bytes}
    (patch : write.patch? = some (start, bytes)) :
    (∃ after, writeField proxy write pool = .ok () after ∧ Edited pool after proxy.index
        ((pool.shown proxy.index).contents.writeAt start bytes)) ∨
      write.notice = .told ∧ ∃ fault final, writeField proxy write pool = .error fault final ∧
        ∃ record, record.id = proxy.index ∧ ListenerFaults pool record fault := by
  obtain ⟨edit, left, planned, returns, outcome⟩ :=
    writeField_of_fits seated bounded own inside fits
  -- What is planned does not depend on the record, so it is the edit that puts the bytes.
  obtain ⟨samePlan, plannedAgain, puts⟩ := FieldWrite.plan_puts bounded fits patch
    (pool.record proxy.index)
  obtain rfl : edit = samePlan := Except.ok.inj (planned.symm.trans plannedAgain)
  rw [puts.run_eq _ (seated.size_shown proxy.index)] at returns
  cases returns
  rcases outcome with done | ⟨told, fault, final, failed, record, shows, faults⟩
  · exact Or.inl done
  · refine Or.inr ⟨told, fault, final, failed, record, ?_, faults⟩
    rcases shows with rfl | rfl <;> rfl

/-- A write that fits and knows its bytes beforehand leaves them at their place, or the record as
it was. -/
theorem edited_of_patch (seated : pool.Seated) (bounded : pool.layout.recordSize < Address.limit)
    {proxy : Proxy} (own : proxy.owner = pool.id) {write : FieldWrite}
    (fits : write.Fits (.inside pool.layout.recordSize)) {start : Nat}
    {bytes : Bytes} (patch : write.patch? = some (start, bytes)) :
    Edited pool (stateLeft (writeField proxy write pool)) proxy.index
        ((pool.shown proxy.index).contents.writeAt start bytes) ∨
      Edited pool (stateLeft (writeField proxy write pool)) proxy.index
        (pool.shown proxy.index).contents := by
  obtain ⟨edit, planned, puts⟩ := FieldWrite.plan_puts bounded fits patch
    (pool.record proxy.index)
  rw [writeField_of_own own, planned]
  exact edited_of_returns seated (puts.run_eq _ (seated.size_shown proxy.index)) _

end RecordPool.Pool
