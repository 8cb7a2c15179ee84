import RecordPool.Proofs.Pool.Frame
import Mathlib.Tactic.Tauto

/-!
# Listeners that do not disturb

A listener that looks into every record it is shown without a fault changes nothing but the
journal.  Only that a record is there has to be so for such listeners to be told of it.
-/

namespace RecordPool.Pool

variable {σ : Type} [Store σ] {pool : Pool σ} {listeners : Pool σ → List Subscription}

/-- No listener ends in a fault. -/
def Calm (pool : Pool σ) : Prop :=
  ∀ subscription ∈ pool.changeListeners ++ pool.lifecycleListeners, ∀ record,
    subscription.listener.look record = .ok ()

omit [Store σ] in
theorem Calm.subscribe (calm : pool.Calm) (topic : Topic) (listener : Listener)
    (looks : ∀ record, listener.look record = .ok ()) :
    (pool.subscribe topic listener).2.Calm := by
  intro subscription member
  have known : subscription ∈ pool.changeListeners ++ pool.lifecycleListeners ∨
      subscription = ⟨⟨pool.nextListener⟩, listener⟩ := by
    cases topic with
    | changes =>
        simp only [Pool.subscribe, addSubscription, List.mem_append, List.mem_singleton]
          at member ⊢
        tauto
    | lifecycle =>
        simp only [Pool.subscribe, addSubscription, List.mem_append, List.mem_singleton]
          at member ⊢
        tauto
  rcases known with before | rfl
  · exact calm subscription before
  · exact looks

omit [Store σ] in
/-- Listeners that look without a fault let the telling go on. -/
theorem tell_of_calm (phase : Phase) (record : Record) {subscriptions : List Subscription}
    (calm : ∀ subscription ∈ subscriptions, ∀ record,
      subscription.listener.look record = .ok ()) (journal : Journal) :
    ∃ told, Journal.tell phase record subscriptions journal = .ok () told := by
  induction subscriptions generalizing journal with
  | nil => exact ⟨journal, rfl⟩
  | cons subscription rest ih =>
      have look := calm subscription List.mem_cons_self record
      have calmRest : ∀ subscription ∈ rest, ∀ record,
          subscription.listener.look record = .ok () := by
        intro other member
        exact calm other (List.mem_cons_of_mem subscription member)
      simp only [Journal.tell, bind_apply, ite_action_apply]
      by_cases hears : subscription.listener.hears phase
      · simp only [if_pos hears, look, ofExcept_ok_apply, modify_apply]
        exact ih calmRest _
      · simp only [if_neg hears]
        exact ih calmRest journal

/-- The listeners of one topic. -/
def Hears (listeners : Pool σ → List Subscription) : Prop :=
  ∀ pool : Pool σ, ∀ subscription ∈ listeners pool,
    subscription ∈ pool.changeListeners ++ pool.lifecycleListeners

omit [Store σ] in
theorem hears_changeListeners : Hears (changeListeners (σ := σ)) := by
  intro pool subscription member
  exact List.mem_append_left _ member

omit [Store σ] in
theorem hears_lifecycleListeners : Hears (lifecycleListeners (σ := σ)) := by
  intro pool subscription member
  exact List.mem_append_right _ member

/-- Telling of a record that is there changes the journal alone when all those who are told
look without a fault. -/
theorem announce_of_looks (looks : ∀ subscription ∈ listeners pool, ∀ record,
      subscription.listener.look record = .ok ()) (phase : Phase) {index : Nat} {record : Record}
    (found : pool.record index = .ok record) :
    ∃ journal, announce listeners phase index pool = .ok () (pool.withJournal journal) := by
  simp only [announce, bind_apply, get_apply, ite_action_apply]
  by_cases nobody : (listeners pool).isEmpty
  · exact ⟨pool.journal, if_pos nobody⟩
  · rcases tell_of_calm phase record looks pool.journal with ⟨told, done⟩
    refine ⟨told, ?_⟩
    simp only [if_neg nobody, found, ofExcept_ok_apply, onJournal_apply, done]

/-- Telling calm listeners of a record that is there changes the journal alone. -/
theorem announce_of_calm (calm : pool.Calm) (hears : Hears listeners) (phase : Phase)
    {index : Nat} {record : Record} (found : pool.record index = .ok record) :
    ∃ journal, announce listeners phase index pool = .ok () (pool.withJournal journal) := by
  apply announce_of_looks _ phase found
  intro subscription member
  exact calm subscription (hears pool subscription member)

omit [Store σ] in
/-- A telling that does not come to its end is ended by a listener. -/
theorem tell_error {phase : Phase} {record : Record} {subscriptions : List Subscription}
    {journal left : Journal} {fault : Fault}
    (ended : Journal.tell phase record subscriptions journal = .error fault left) :
    ∃ subscription ∈ subscriptions, subscription.listener.hears phase = true ∧
      subscription.listener.look record = .error fault := by
  induction subscriptions generalizing journal with
  | nil => cases ended
  | cons subscription rest ih =>
      simp only [Journal.tell, bind_apply, ite_action_apply] at ended
      by_cases hears : subscription.listener.hears phase = true
      · simp only [if_pos hears] at ended
        cases looked : subscription.listener.look record with
        | error found =>
            simp only [looked, ofExcept_error_apply] at ended
            cases ended
            exact ⟨subscription, List.mem_cons_self, hears, looked⟩
        | ok _ =>
            simp only [looked, ofExcept_ok_apply, modify_apply] at ended
            obtain ⟨other, among, ended⟩ := ih ended
            exact ⟨other, List.mem_cons_of_mem subscription among, ended⟩
      · simp only [if_neg hears] at ended
        obtain ⟨other, among, ended⟩ := ih ended
        exact ⟨other, List.mem_cons_of_mem subscription among, ended⟩

/-- If a record is there, only a listener can end an announcement of it. -/
theorem announce_error {phase : Phase} {index : Nat} {record : Record} {fault : Fault}
    {left : Pool σ} (found : pool.record index = .ok record)
    (ended : announce listeners phase index pool = .error fault left) :
    ∃ subscription ∈ listeners pool, subscription.listener.hears phase = true ∧
      subscription.listener.look record = .error fault := by
  simp only [announce, bind_apply, get_apply, ite_action_apply, found, ofExcept_ok_apply,
    onJournal_apply] at ended
  by_cases nobody : (listeners pool).isEmpty
  · rw [if_pos nobody] at ended
    cases ended
  · rw [if_neg nobody] at ended
    cases told : Journal.tell phase record (listeners pool) pool.journal with
    | ok _ journal =>
        rw [told] at ended
        cases ended
    | error found journal =>
        rw [told] at ended
        cases ended
        exact tell_error told

/-- Listeners cannot be told of a record that is not there. -/
theorem announce_of_missing (listeners : Pool σ → List Subscription) (phase : Phase)
    {index : Nat} {fault : Fault} (missing : pool.record index = .error fault) :
    announce listeners phase index pool = .ok () pool ∨
      announce listeners phase index pool = .error fault pool := by
  simp only [announce, bind_apply, get_apply, ite_action_apply]
  by_cases nobody : (listeners pool).isEmpty
  · exact Or.inl (if_pos nobody)
  · right
    rw [if_neg nobody, missing]
    rfl

end RecordPool.Pool
