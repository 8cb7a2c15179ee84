import RecordPool.Fixtures
import RecordPool.Proofs.Interner.Minting
import RecordPool.Proofs.Pool.LifeSteps
import RecordPool.Proofs.Pool.Opening
import Mathlib.Data.Set.List

/-!
# Canonical records of keys

A table of ids can be asked for the record of a key and create it in a pool if the key is absent.
Then there is one creation for every call with an absent key and no other use of the pool, so
that keys that are asked for again find the record that they have.
-/

namespace RecordPool.Pool

variable {σ : Type} [Store σ] [LawfulStore σ]

omit [LawfulStore σ] in
/-- Creates a record, and tells its id. -/
def createId (proxy : Proxy) : EStateM (Failure Error) (Pool σ) Nat :=
  Proxy.index <$> create proxy

/-- Whenever the computation ends well, one more record is live, and its id is told. -/
def CreatesRecord (assign : EStateM (Failure Error) (Pool σ) Nat) : Prop :=
  ∀ pool live id after, pool.slab.Orderly live → assign pool = .ok id after →
    id ∉ live ∧ after.slab.Orderly (insert id live)

theorem createsRecord_createId (proxy : Proxy) :
    CreatesRecord (createId proxy : EStateM (Failure Error) (Pool σ) Nat) := by
  intro pool live id after orderly created
  rw [createId, map_apply] at created
  cases outcome : create proxy pool with
  | error failure left =>
      rw [outcome] at created
      cases created
  | ok pointed left =>
      rw [outcome] at created
      cases created
      have spec := create_spec orderly outcome
      exact ⟨spec.1, spec.2.1⟩

omit [LawfulStore σ] in
theorem stateAfter_createId (pool : Pool σ) (proxies : List Proxy) :
    Interner.stateAfter (proxies.map createId) pool = (pool.run (proxies.map .create)).2 := by
  induction proxies generalizing pool with
  | nil => rfl
  | cons proxy rest ih =>
      have step : stateLeft (createId proxy pool) = (pool.step (.create proxy)).2 := by
        rw [step_eq, createId, perform, stateLeft_map, stateLeft_map]
      have rest := ih (stateLeft (createId proxy pool))
      rw [step] at rest
      rw [List.map_cons, List.map_cons, Interner.stateAfter, List.foldl_cons, step]
      exact rest

variable {κ : Type} [DecidableEq κ]

/-- How calls to a new table use the pool that it creates records in. -/
structure CreatesForAbsent (pool : Pool σ)
    (calls : List (Interner.Call κ (Failure Error) (Pool σ))) : Prop where
  /-- There is one creation for every call with an absent key, and no other use of the pool. -/
  creations : (∀ call ∈ calls, ∀ assign, call.assign? = some assign →
      ∃ proxy, assign = createId proxy) →
    ∃ proxies : List Proxy, Interner.assigned ((Interner.Session.start pool).history calls) =
        proxies.map createId ∧
      ((Interner.Session.start pool).after calls).state = (pool.run (proxies.map .create)).2
  /-- If all creations succeed, there is one more record for every call with an absent key. -/
  liveCount_eq : (∀ call ∈ calls, ∀ assign, call.assign? = some assign → CreatesRecord assign) →
    (∀ event ∈ (Interner.Session.start pool).history calls,
      ∀ failure, event.reply ≠ .failed failure) →
    ((Interner.Session.start pool).after calls).state.liveCount =
      pool.liveCount + (Interner.assigned ((Interner.Session.start pool).history calls)).length

section LiveCount

variable {session : Interner.Session κ (Pool σ)}
  {earlier : List (Interner.Event κ (Failure Error) (Pool σ))} {live : Finset Nat}

/-- A call that succeeds makes a record live for the computation that it runs, if it runs one. -/
theorem liveCount_step
    (agrees : ∀ key, session.table.get? key = Interner.known? earlier key)
    (orderly : session.state.slab.Orderly live)
    {call : Interner.Call κ (Failure Error) (Pool σ)}
    (creating : ∀ assign, call.assign? = some assign → CreatesRecord assign)
    (succeeds : ∀ failure, (session.step call).1 ≠ .failed failure) :
    ∃ liveAfter, (session.step call).2.state.slab.Orderly liveAfter ∧
      (session.step call).2.state.liveCount = session.state.liveCount +
        (Interner.assignedFrom earlier [⟨call, (session.step call).1⟩]).length := by
  rcases Interner.assigned_step agrees call with
    ⟨nothing, same⟩ | ⟨assign, passed, one, answer, left⟩
  · rw [nothing, same]
    exact ⟨live, orderly, rfl⟩
  · cases outcome : assign session.state with
    | error failure pool =>
        rw [outcome] at answer
        exact absurd answer (succeeds failure)
    | ok id pool =>
        obtain ⟨notLive, orderlyAfter⟩ := creating assign passed _ live id pool orderly outcome
        refine ⟨insert id live, ?_, ?_⟩
        · rw [left, outcome]
          exact orderlyAfter
        · rw [one, left, outcome, stateLeft_ok, liveCount_eq orderlyAfter, liveCount_eq orderly,
            Finset.card_insert_of_notMem notLive]
          rfl

theorem liveCount_after
    (agrees : ∀ key, session.table.get? key = Interner.known? earlier key)
    (orderly : session.state.slab.Orderly live)
    {calls : List (Interner.Call κ (Failure Error) (Pool σ))}
    (creating : ∀ call ∈ calls, ∀ assign, call.assign? = some assign → CreatesRecord assign)
    (succeed : ∀ event ∈ session.history calls, ∀ failure, event.reply ≠ .failed failure) :
    (session.after calls).state.liveCount = session.state.liveCount +
      (Interner.assignedFrom earlier (session.history calls)).length := by
  induction calls generalizing session earlier live with
  | nil => rfl
  | cons call rest ih =>
      obtain ⟨creatingNow, creatingLater⟩ := List.forall_mem_cons.mp creating
      obtain ⟨succeedsNow, succeedLater⟩ := List.forall_mem_cons.mp succeed
      obtain ⟨liveAfter, orderlyAfter, now⟩ :=
        liveCount_step agrees orderly creatingNow succeedsNow
      have later := ih (Interner.agrees_step agrees call) orderlyAfter creatingLater succeedLater
      rw [Interner.Session.history, Interner.assignedFrom_cons, List.length_append,
        ← Nat.add_assoc, ← now]
      exact later

end LiveCount

theorem createsForAbsent {pool : Pool σ} {live : Finset Nat}
    (orderly : pool.slab.Orderly live)
    (calls : List (Interner.Call κ (Failure Error) (Pool σ))) : CreatesForAbsent pool calls where
  creations creating := by
    have each : Interner.assigned ((Interner.Session.start pool).history calls) ∈
        Set.range (List.map createId) := by
      rw [Set.range_list_map]
      intro assign run
      obtain ⟨call, among, passed⟩ :=
        Interner.exists_of_mem_assignedFrom (Interner.agrees_start pool) run
      obtain ⟨proxy, same⟩ := creating call among assign passed
      exact ⟨proxy, same.symm⟩
    obtain ⟨proxies, same⟩ := each
    refine ⟨proxies, same.symm, ?_⟩
    rw [← stateAfter_createId, same]
    exact Interner.state_after (Interner.agrees_start pool) calls
  liveCount_eq creating succeed :=
    liveCount_after (Interner.agrees_start pool) orderly creating succeed

/-- Whatever is asked of a table, it answers by what was asked before.  If it mints its ids itself,
it mints them in order and none twice.  If its ids are those of records that are created for it,
one is created for every call with an absent key. -/
theorem all_intern_canonically :
    (∀ (κ ε ω : Type) [DecidableEq κ] (start : ω) (calls : List (Interner.Call κ ε ω)),
      let session := (Interner.Session.start start).after calls
      let history := (Interner.Session.start start).history calls
      Interner.AnswersByHistory start session history ∧
        ((∀ call ∈ calls, call.assign? = none) → Interner.MintsInOrder session history)) ∧
      OfEveryKind fun σ _ _ pool =>
        ∀ (commands : List Command) (κ : Type) [DecidableEq κ]
          (calls : List (Interner.Call κ (Failure Error) (Pool σ))),
          CreatesForAbsent (pool.run commands).2 calls := by
  constructor
  · intro κ ε ω _ start calls
    exact ⟨Interner.answersByHistory start calls, Interner.mintsInOrder start⟩
  · apply ofEveryKind
    intro σ _ _ id layout store config sound _ commands κ _ calls
    rcases run_orderly (orderly_blank sound id layout config) commands with ⟨live, orderly⟩
    exact createsForAbsent orderly calls

/-- A key that is interned, removed and interned again while the ids are minted, and while they
are those of records. -/
theorem removed_key_interned_anew :
    (let calls : List (Interner.Call Nat Empty Unit) :=
        [.intern 7, .intern 8, .intern 7, .remove 7, .intern 7]
      let session := (Interner.Session.start ()).after calls
      let history := (Interner.Session.start ()).history calls
      history.map Interner.Event.reply = [.id 0, .id 1, .id 0, .found (some 0), .id 2] ∧
        (∀ call ∈ calls, call.assign? = none) ∧ Interner.MintsInOrder session history) ∧
      ∃ layout pool, Fixture.int.layout = .ok layout ∧ ofConfig ⟨0⟩ layout {} = .ok pool ∧
        let creation := createId (.unbound ⟨0⟩)
        let calls : List (Interner.Call Nat (Failure Error) (Pool Backend)) :=
          [.internWith 7 creation, .internWith 8 creation, .internWith 7 creation, .remove 7,
            .internWith 7 creation]
        let session := (Interner.Session.start pool).after calls
        let history := (Interner.Session.start pool).history calls
        history.map Interner.Event.reply = [.id 0, .id 1, .id 0, .found (some 0), .id 2] ∧
          session.state.liveCount = pool.liveCount + (Interner.assigned history).length ∧
          session.state.liveCount = 3 := by
  constructor
  · have plain : ∀ call ∈ ([.intern 7, .intern 8, .intern 7, .remove 7, .intern 7] :
        List (Interner.Call Nat Empty Unit)), call.assign? = none := by
      simp [Interner.Call.assign?]
    exact ⟨by decide +kernel, plain, (all_intern_canonically.1 Nat Empty Unit () _).2 plain⟩
  · have opened : ∃ layout pool, Fixture.int.layout = .ok layout ∧
        ofConfig ⟨0⟩ layout {} = .ok pool ∧
        let creation := createId (.unbound ⟨0⟩)
        let calls : List (Interner.Call Nat (Failure Error) (Pool Backend)) :=
          [.internWith 7 creation, .internWith 8 creation, .internWith 7 creation, .remove 7,
            .internWith 7 creation]
        ((Interner.Session.start pool).history calls).map Interner.Event.reply =
            [.id 0, .id 1, .id 0, .found (some 0), .id 2] ∧
          ((Interner.Session.start pool).after calls).state.liveCount = 3 :=
      ⟨_, _, rfl, rfl, by decide +kernel, by decide +kernel⟩
    rcases opened with ⟨layout, pool, built, opened, replies, count⟩
    have creates := all_intern_canonically.2.1 _ _ _ _ _ opened [] Nat
      [.internWith 7 (createId (.unbound ⟨0⟩)), .internWith 8 (createId (.unbound ⟨0⟩)),
        .internWith 7 (createId (.unbound ⟨0⟩)), .remove 7,
        .internWith 7 (createId (.unbound ⟨0⟩))]
    refine ⟨layout, pool, built, opened, replies, creates.liveCount_eq ?_ ?_, count⟩
    · intro call among assign passed
      have same : assign = createId (.unbound ⟨0⟩) := by
        simp only [List.mem_cons, List.not_mem_nil, or_false] at among
        rcases among with rfl | rfl | rfl | rfl | rfl <;> cases passed <;> rfl
      exact same ▸ createsRecord_createId _
    · intro event among failure failed
      have listed := List.mem_map_of_mem (f := Interner.Event.reply) among
      rw [failed] at listed
      exact absurd (replies ▸ listed) (by simp)

end RecordPool.Pool
