import RecordPool.Proofs.Computation
import RecordPool.Proofs.Interner.Entries

/-!
# Histories of tables

The calls to a table with what was answered are its history, and the history alone tells which
id a key has: the one it was given when it was last interned, unless it was removed since.

An id that is computed is computed for an absent key only, so that the computations work on
their state as if nothing else had been called.
-/

namespace RecordPool.Interner

/-- What can be asked of a table.  The computation of an id works on a state of its own and may
fail. -/
inductive Call (κ ε ω : Type) where
  | intern (key : κ)
  | internWith (key : κ) (assign : EStateM ε ω Nat)
  | get (key : κ)
  | remove (key : κ)
  | count

/-- What a table answers. -/
inductive Reply (ε : Type) where
  | id (id : Nat)
  | found (id : Option Nat)
  | count (count : Nat)
  | failed (error : ε)
  deriving DecidableEq

variable {κ ε ω : Type}

/-- The computation that is passed with a call, if one is. -/
def Call.assign? : Call κ ε ω → Option (EStateM ε ω Nat)
  | .internWith _ assign => some assign
  | _ => none

/-- What a call answers whose computation ended. -/
def Reply.ofResult : EStateM.Result ε ω Nat → Reply ε
  | .ok value _ => .id value
  | .error error _ => .failed error

/-- A call with its answer. -/
structure Event (κ ε ω : Type) where
  call : Call κ ε ω
  reply : Reply ε

/-- A table and the state that computations of ids work on. -/
structure Session (κ ω : Type) where
  table : Interner κ
  state : ω

/-- A session with an empty table. -/
def Session.start (state : ω) : Session κ ω :=
  ⟨{}, state⟩

variable [DecidableEq κ]

namespace Session

/-- Carries out a call.  A computation that fails leaves the table as it is. -/
def step (session : Session κ ω) : Call κ ε ω → Reply ε × Session κ ω
  | .intern key =>
      let (id, table) := session.table.intern key
      (.id id, { session with table := table })
  | .internWith key assign =>
      match session.table.internWith key assign session.state with
      | .ok (id, table) state => (.id id, ⟨table, state⟩)
      | .error error state => (.failed error, { session with state := state })
  | .get key => (.found (session.table.get? key), session)
  | .remove key =>
      let (id, table) := session.table.remove key
      (.found id, { session with table := table })
  | .count => (.count session.table.count, session)

/-- The session after calls. -/
def after (session : Session κ ω) (calls : List (Call κ ε ω)) : Session κ ω :=
  calls.foldl (fun session call => (session.step call).2) session

/-- Calls with their answers, in order. -/
def history (session : Session κ ω) : List (Call κ ε ω) → List (Event κ ε ω)
  | [] => []
  | call :: rest => ⟨call, (session.step call).1⟩ :: (session.step call).2.history rest

theorem after_append (session : Session κ ω) (earlier later : List (Call κ ε ω)) :
    session.after (earlier ++ later) = (session.after earlier).after later :=
  List.foldl_append

theorem history_append (session : Session κ ω) (earlier later : List (Call κ ε ω)) :
    session.history (earlier ++ later) =
      session.history earlier ++ (session.after earlier).history later := by
  induction earlier generalizing session with
  | nil => rfl
  | cons call rest ih => exact congrArg _ (ih (session.step call).2)

end Session

/-- The id of a key after a call, if it had the given one before. -/
def Event.idAfter (key : κ) (before : Option Nat) (event : Event κ ε ω) : Option Nat :=
  match event.call, event.reply with
  | .intern other, .id id => if key = other then some id else before
  | .internWith other _, .id id => if key = other then some id else before
  | .remove other, _ => if key = other then none else before
  | _, _ => before

/-- The id that a key has: the one it was given when it was last interned, if it was not removed
since. -/
def known? (history : List (Event κ ε ω)) (key : κ) : Option Nat :=
  history.foldl (Event.idAfter key) none

/-- The computations that were passed with absent keys, in order, where some events came
before. -/
def assignedFrom (earlier : List (Event κ ε ω)) : List (Event κ ε ω) → List (EStateM ε ω Nat)
  | [] => []
  | event :: rest =>
      let assigned := assignedFrom (earlier ++ [event]) rest
      match event.call with
      | .internWith key assign => if known? earlier key = none then assign :: assigned else assigned
      | _ => assigned

/-- The computations that were passed with absent keys, in order. -/
def assigned (history : List (Event κ ε ω)) : List (EStateM ε ω Nat) :=
  assignedFrom [] history

/-- The state that computations leave, one after another and whether they fail or not. -/
def stateAfter (assigns : List (EStateM ε ω Nat)) (state : ω) : ω :=
  assigns.foldl (fun state assign => stateLeft (assign state)) state

/-! ## Single calls -/

section Steps

variable {session : Session κ ω} {key : κ} {id : Nat}

theorem step_intern_of_known (known : session.table.get? key = some id) :
    session.step (.intern key : Call κ ε ω) = (.id id, session) := by
  simp only [Session.step, intern, known]

theorem step_intern_of_absent (absent : session.table.get? key = none) :
    session.step (.intern key : Call κ ε ω) =
      (.id session.table.nextId, { session with table := (session.table.intern key).2 }) := by
  simp only [Session.step, intern, absent]

theorem step_internWith_of_known (known : session.table.get? key = some id)
    (assign : EStateM ε ω Nat) : session.step (.internWith key assign) = (.id id, session) := by
  simp only [Session.step, internWith, known, pure_apply]

/-- For an absent key the computation is run on the state. -/
theorem step_internWith_of_absent (absent : session.table.get? key = none)
    (assign : EStateM ε ω Nat) :
    session.step (.internWith key assign) =
      match assign session.state with
      | .ok id state => (.id id, ⟨session.table.add key id, state⟩)
      | .error error state => (.failed error, { session with state := state }) := by
  simp only [Session.step, internWith, absent, bind_apply]
  cases assign session.state <;> rfl

theorem run_internWith_of_absent (absent : session.table.get? key = none)
    (assign : EStateM ε ω Nat) :
    (session.step (.internWith key assign)).1 = .ofResult (assign session.state) ∧
      (session.step (.internWith key assign)).2.state = stateLeft (assign session.state) := by
  rw [step_internWith_of_absent absent]
  cases assign session.state <;> exact ⟨rfl, rfl⟩

/-- What is answered to a call tells what ids the keys have after it. -/
theorem get?_step (session : Session κ ω) (call : Call κ ε ω) (key : κ) :
    (session.step call).2.table.get? key =
      Event.idAfter key (session.table.get? key) ⟨call, (session.step call).1⟩ := by
  cases call with
  | intern other =>
      cases present : session.table.get? other with
      | some id =>
          rw [step_intern_of_known present]
          exact (ite_get?_of_known present key).symm
      | none =>
          rw [step_intern_of_absent present]
          exact get?_mint present key
  | internWith other assign =>
      cases present : session.table.get? other with
      | some id =>
          rw [step_internWith_of_known present]
          exact (ite_get?_of_known present key).symm
      | none =>
          rw [step_internWith_of_absent present]
          cases assign session.state with
          | ok id state => exact get?_add present id key
          | error error state => rfl
  | get other => rfl
  | remove other => exact get?_remove other key
  | count => rfl

theorem proper_step (proper : session.table.Proper) (call : Call κ ε ω) :
    (session.step call).2.table.Proper := by
  cases call with
  | intern other =>
      cases present : session.table.get? other with
      | some id => rwa [step_intern_of_known present]
      | none =>
          rw [step_intern_of_absent present]
          simp only [intern, present]
          exact proper.add present session.table.nextId
  | internWith other assign =>
      cases present : session.table.get? other with
      | some id => rwa [step_internWith_of_known present]
      | none =>
          rw [step_internWith_of_absent present]
          cases assign session.state with
          | ok id state => exact proper.add present id
          | error error state => exact proper
  | get other => exact proper
  | remove other => exact proper.remove other
  | count => exact proper

/-- A key keeps its id until it is removed. -/
theorem get?_step_of_known (known : session.table.get? key = some id) {call : Call κ ε ω}
    (kept : call ≠ .remove key) : (session.step call).2.table.get? key = some id := by
  rw [get?_step, known]
  cases call with
  | intern other =>
      by_cases same : key = other
      · subst same
        rw [step_intern_of_known known]
        exact if_pos rfl
      · exact if_neg same
  | internWith other assign =>
      by_cases same : key = other
      · subst same
        rw [step_internWith_of_known known]
        exact if_pos rfl
      · cases answer : (session.step (.internWith other assign)).1 <;>
          simp [Event.idAfter, same]
  | get other => rfl
  | remove other =>
      have other : key ≠ other := fun same => kept (same ▸ rfl)
      exact if_neg other
  | count => rfl

end Steps

/-! ## Tables at all times -/

theorem get?_after (session : Session κ ω) (calls : List (Call κ ε ω)) (key : κ) :
    (session.after calls).table.get? key =
      (session.history calls).foldl (Event.idAfter key) (session.table.get? key) := by
  induction calls generalizing session with
  | nil => rfl
  | cons call rest ih =>
      rw [Session.history, List.foldl_cons, ← get?_step]
      exact ih (session.step call).2

/-- A key has the id that the history tells. -/
theorem get?_eq_known? (state : ω) (calls : List (Call κ ε ω)) (key : κ) :
    ((Session.start state).after calls).table.get? key =
      known? ((Session.start state).history calls) key :=
  get?_after (.start state) calls key

theorem proper_after {session : Session κ ω} (proper : session.table.Proper)
    (calls : List (Call κ ε ω)) : (session.after calls).table.Proper := by
  induction calls generalizing session with
  | nil => exact proper
  | cons call rest ih => exact ih (proper_step proper call)

theorem get?_after_of_known {session : Session κ ω} {key : κ} {id : Nat}
    (known : session.table.get? key = some id) {calls : List (Call κ ε ω)}
    (kept : ∀ call ∈ calls, call ≠ .remove key) :
    (session.after calls).table.get? key = some id := by
  induction calls generalizing session with
  | nil => exact known
  | cons call rest ih =>
      obtain ⟨keptNow, keptLater⟩ := List.forall_mem_cons.mp kept
      exact ih (get?_step_of_known known keptNow) keptLater

theorem assignedFrom_cons (earlier : List (Event κ ε ω)) (event : Event κ ε ω)
    (rest : List (Event κ ε ω)) :
    assignedFrom earlier (event :: rest) =
      assignedFrom earlier [event] ++ assignedFrom (earlier ++ [event]) rest := by
  rcases event with ⟨call, reply⟩
  cases call with
  | internWith key assign =>
      by_cases absent : known? earlier key = none
      · simp [assignedFrom, absent]
      · simp [assignedFrom, absent]
  | _ => rfl

omit [DecidableEq κ] in
theorem stateAfter_append (first second : List (EStateM ε ω Nat)) (state : ω) :
    stateAfter (first ++ second) state = stateAfter second (stateAfter first state) :=
  List.foldl_append

section Computations

variable {session : Session κ ω} {earlier : List (Event κ ε ω)}

theorem agrees_start (state : ω) (key : κ) :
    (Session.start state).table.get? key = known? ([] : List (Event κ ε ω)) key :=
  get?_empty key

theorem agrees_step (agrees : ∀ key, session.table.get? key = known? earlier key)
    (call : Call κ ε ω) (key : κ) :
    (session.step call).2.table.get? key =
      known? (earlier ++ [⟨call, (session.step call).1⟩]) key := by
  rw [get?_step, agrees, known?, known?, List.foldl_append]
  rfl

/-- A call runs the computation that is passed with it, if one is and the key is absent, and
otherwise leaves the state. -/
theorem assigned_step (agrees : ∀ key, session.table.get? key = known? earlier key)
    (call : Call κ ε ω) :
    assignedFrom earlier [⟨call, (session.step call).1⟩] = [] ∧
        (session.step call).2.state = session.state ∨
      ∃ assign, call.assign? = some assign ∧
        assignedFrom earlier [⟨call, (session.step call).1⟩] = [assign] ∧
        (session.step call).1 = .ofResult (assign session.state) ∧
        (session.step call).2.state = stateLeft (assign session.state) := by
  cases call with
  | internWith key assign =>
      cases present : session.table.get? key with
      | some id =>
          have known : ¬ known? earlier key = none := by simp [← agrees, present]
          rw [step_internWith_of_known present]
          exact .inl ⟨if_neg known, rfl⟩
      | none =>
          have absent : known? earlier key = none := (agrees key).symm.trans present
          exact .inr ⟨assign, rfl, if_pos absent, run_internWith_of_absent present assign⟩
  | _ => exact .inl ⟨rfl, rfl⟩

/-- The state is what the computations make of it that were passed with absent keys. -/
theorem state_after (agrees : ∀ key, session.table.get? key = known? earlier key)
    (calls : List (Call κ ε ω)) :
    (session.after calls).state =
      stateAfter (assignedFrom earlier (session.history calls)) session.state := by
  induction calls generalizing session earlier with
  | nil => rfl
  | cons call rest ih =>
      have now : (session.step call).2.state =
          stateAfter (assignedFrom earlier [⟨call, (session.step call).1⟩]) session.state := by
        rcases assigned_step agrees call with ⟨nothing, same⟩ | ⟨assign, -, one, -, left⟩
        · rw [nothing, same]
          rfl
        · rw [one, left]
          rfl
      rw [Session.history, assignedFrom_cons, stateAfter_append, ← now]
      exact ih (agrees_step agrees call)

/-- The computations that are run were passed with calls. -/
theorem exists_of_mem_assignedFrom (agrees : ∀ key, session.table.get? key = known? earlier key)
    {calls : List (Call κ ε ω)} {assign : EStateM ε ω Nat}
    (run : assign ∈ assignedFrom earlier (session.history calls)) :
    ∃ call ∈ calls, call.assign? = some assign := by
  induction calls generalizing session earlier with
  | nil => cases run
  | cons call rest ih =>
      rw [Session.history, assignedFrom_cons, List.mem_append] at run
      rcases run with now | later
      · rcases assigned_step agrees call with ⟨nothing, -⟩ | ⟨other, passed, one, -⟩
        · rw [nothing] at now
          cases now
        · rw [one, List.mem_singleton] at now
          exact ⟨call, List.mem_cons_self, now ▸ passed⟩
      · obtain ⟨other, among, passed⟩ := ih (agrees_step agrees call) later
        exact ⟨other, List.mem_cons_of_mem call among, passed⟩

end Computations

/-- How a table with a history answers, whose computations found a state at the start. -/
structure AnswersByHistory (start : ω) (session : Session κ ω)
    (history : List (Event κ ε ω)) : Prop where
  get_eq : ∀ key,
    session.step (.get key : Call κ ε ω) = (.found (known? history key), session)
  remove_eq : ∀ key,
    (session.step (.remove key : Call κ ε ω)).1 = .found (known? history key)
  count_eq : ∃ keys : Finset κ,
    (∀ key, key ∈ keys ↔ (known? history key).isSome = true) ∧
      session.step (.count : Call κ ε ω) = (.count keys.card, session)
  intern_known : ∀ key id, known? history key = some id →
    session.step (.intern key : Call κ ε ω) = (.id id, session)
  internWith_known : ∀ key id, known? history key = some id → ∀ assign : EStateM ε ω Nat,
    session.step (.internWith key assign) = (.id id, session)
  internWith_absent : ∀ key, known? history key = none → ∀ assign : EStateM ε ω Nat,
    (session.step (.internWith key assign)).1 = .ofResult (assign session.state) ∧
      (session.step (.internWith key assign)).2.state = stateLeft (assign session.state)
  /-- Nothing but the computations of absent keys was run. -/
  state_eq : session.state = stateAfter (assigned history) start
  /-- A key keeps its id until it is removed. -/
  stays : ∀ key id, known? history key = some id → ∀ later : List (Call κ ε ω),
    (∀ call ∈ later, call ≠ .remove key) →
      known? (history ++ session.history later) key = some id

theorem answersByHistory (state : ω) (calls : List (Call κ ε ω)) :
    AnswersByHistory state ((Session.start state).after calls)
      ((Session.start state).history calls) := by
  have agrees := get?_eq_known? state calls
  have properStart : (Session.start state : Session κ ω).table.Proper := proper_empty
  have proper := proper_after properStart calls
  refine ⟨?_, ?_, ?_, ?_, ?_, ?_, ?_, ?_⟩
  · intro key
    rw [← agrees]
    rfl
  · intro key
    rw [← agrees]
    rfl
  · refine ⟨((Session.start state).after calls).table.keys, ?_, ?_⟩
    · intro key
      rw [← agrees, mem_keys]
    · rw [proper.card_keys]
      rfl
  · intro key id known
    exact step_intern_of_known ((agrees key).trans known)
  · intro key id known assign
    exact step_internWith_of_known ((agrees key).trans known) assign
  · intro key absent assign
    exact run_internWith_of_absent ((agrees key).trans absent) assign
  · exact state_after (agrees_start state) calls
  · intro key id known later kept
    rw [← Session.history_append, ← get?_eq_known?, Session.after_append]
    exact get?_after_of_known ((agrees key).trans known) kept

end RecordPool.Interner
