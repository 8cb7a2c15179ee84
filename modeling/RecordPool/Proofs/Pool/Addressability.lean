import RecordPool.Fixtures
import RecordPool.Proofs.Pool.LifeSteps
import RecordPool.Proofs.Pool.Reading

/-!
# Indices stay addressable

An index that a pool has handed out can be used for good.  Whatever becomes of its record,
the capacity never falls below it again, and every use of an accessor of the layout at that
index returns.
-/

namespace RecordPool.Pool

open LawfulStore

variable {σ : Type} [Store σ]

/-- A call that points a proxy at an index: because the record is created, or because it is
looked up and found to be live. -/
inductive Call.Binds (call : Call σ) : (index : Nat) → Prop where
  | created {proxy pointed : Proxy} {index : Nat} (asked : call.command = .create proxy)
      (answered : call.answer = .ok (.proxy pointed)) (points : pointed.index = index) :
      call.Binds index
  | lookedUp {id : Nat} {proxy pointed : Proxy} {index : Nat}
      (asked : call.command = .lookUp id proxy) (validated : call.before.validation = true)
      (answered : call.answer = .ok (.proxy pointed)) (points : pointed.index = index) :
      call.Binds index
  | foundLive {id : Nat} {proxy pointed : Proxy} {index : Nat}
      (asked : call.command = .lookUpIfLive id proxy)
      (answered : call.answer = .ok (.found (some pointed))) (points : pointed.index = index) :
      call.Binds index

omit [Store σ] in
theorem lookUp_ok {pool : Pool σ} {id : Nat} {proxy pointed : Proxy}
    (validated : pool.validation = true) (found : pool.lookUp id proxy = .ok pointed) :
    pool.isLive id = true ∧ pointed.index = id := by
  by_cases own : proxy.owner = pool.id
  · rw [lookUp_of_own own, validated, Bool.true_and] at found
    cases isLive : pool.isLive id with
    | false =>
        rw [isLive] at found
        cases found
    | true =>
        rw [isLive] at found
        cases found
        exact ⟨rfl, rfl⟩
  · rw [lookUp_of_foreign own] at found
    cases found

omit [Store σ] in
theorem lookUp?_eq_some {pool : Pool σ} {id : Nat} {proxy pointed : Proxy}
    (found : pool.lookUp? id proxy = some pointed) :
    pool.isLive id = true ∧ pointed.index = id := by
  rw [lookUp?_eq] at found
  by_cases bound : proxy.owner = pool.id ∧ pool.isLive id = true
  · rw [if_pos bound] at found
    cases found
    exact ⟨bound.2, rfl⟩
  · rw [if_neg bound] at found
    cases found

variable [LawfulStore σ]

/-- The index that a proxy is pointed at is below the capacity. -/
theorem Call.Binds.lt_capacity {pool : Pool σ} {live : Finset Nat}
    (orderly : pool.slab.Orderly live) {command : Command} {index : Nat}
    (binds : (pool.call command).Binds index) : index < (pool.step command).2.capacity := by
  cases binds with
  | @created proxy pointed _ asked answered points =>
      obtain rfl : command = .create proxy := asked
      subst points
      cases created : create proxy pool with
      | error failure left =>
          rw [call_eq (step_create_of_error created)] at answered
          cases answered
      | ok bound after =>
          rw [call_eq (step_create_of_ok created)] at answered
          rw [step_create_of_ok created]
          cases answered
          exact (create_spec orderly created).2.1.lt_capacity (Finset.mem_insert_self _ _)
  | @lookedUp id proxy pointed _ asked validated answered points =>
      obtain rfl : command = .lookUp id proxy := asked
      simp only [call, step_eq, perform, bind_apply, get_apply] at answered ⊢
      cases found : pool.lookUp id proxy with
      | error error =>
          rw [found] at answered
          cases answered
      | ok bound =>
          rw [found] at answered
          cases answered
          obtain ⟨isLive, here⟩ := lookUp_ok validated found
          rw [← points, here]
          exact orderly.lt_capacity ((isLive_iff orderly).mp isLive)
  | @foundLive id proxy pointed _ asked answered points =>
      obtain rfl : command = .lookUpIfLive id proxy := asked
      have found : pool.lookUp? id proxy = some pointed := by
        injection answered with replied
        injection replied
      obtain ⟨isLive, here⟩ := lookUp?_eq_some found
      rw [← points, here]
      exact orderly.lt_capacity ((isLive_iff orderly).mp isLive)

/-- The record that a proxy points at is there, and every use of it through the proxy that fits
the layout returns.  Only a change listener that is told of the record can end a write. -/
structure Addressable (pool : Pool σ) (proxy : Proxy) : Prop where
  record : ∃ contents, pool.record proxy.index = .ok ⟨proxy.index, contents⟩ ∧
    contents.size = pool.layout.recordSize ∧
    ∀ edit : Edit Unit, answerOf (editQuietly proxy.index edit pool) = answerOf (edit.run contents)
  reads : ∀ read : FieldRead, read.Fits pool.layout.accessors →
    ∃ value, pool.readField proxy read = .ok value
  distances : ∀ point other, pool.layout.accessors.point point → pool.Reaches other →
    (∃ square, point.squaredDistance pool proxy other = .ok square) ∧
      ∃ square, point.squaredDistance pool other proxy = .ok square
  writes : ∀ write : FieldWrite, write.Fits pool.layout.accessors →
    (∃ after, writeField proxy write pool = .ok () after) ∨
      write.notice = .told ∧ ∃ fault left, writeField proxy write pool = .error fault left ∧
        ∃ contents, contents.size = pool.layout.recordSize ∧
          ListenerFaults pool ⟨proxy.index, contents⟩ fault

theorem addressable_of_reaches {pool : Pool σ} {declarations : List Declaration} {proxy : Proxy}
    (built : Layout.ofDeclarations declarations = .ok pool.layout) (blocks : Store.InBlocks σ)
    (seated : pool.Seated) (reaches : pool.Reaches proxy) : pool.Addressable proxy where
  record := by
    refine ⟨_, seated.record_eq reaches.inside, seated.size_shown proxy.index, ?_⟩
    intro edit
    obtain ⟨after, done, -⟩ := editQuietly_of_inside seated.sound reaches.inside edit
    rw [done, answerOf_withState]
    rfl
  reads read fits :=
    readField_of_fits blocks seated (Layout.recordSize_lt_of_built built) reaches
      (fits.mono (Layout.accessors_inside built))
  distances point other accessor reachesOther := by
    have bounded := Layout.recordSize_lt_of_built built
    have inside := (Layout.accessors_inside built).point point accessor
    exact ⟨squaredDistance_of_inside blocks seated bounded reaches reachesOther inside,
      squaredDistance_of_inside blocks seated bounded reachesOther reaches inside⟩
  writes write fits := by
    obtain ⟨edit, left, -, returns, done | ⟨told, fault, final, failed, record, shows, faults⟩⟩ :=
      writeField_of_fits seated (Layout.recordSize_lt_of_built built) reaches.own reaches.inside
        (fits.mono (Layout.accessors_inside built))
    · obtain ⟨after, done, -⟩ := done
      exact Or.inl ⟨after, done⟩
    · refine Or.inr ⟨told, fault, final, failed, record.contents, ?_, ?_⟩
      · rcases shows with rfl | rfl
        · exact seated.size_shown proxy.index
        · have kept := edit.size_run (pool.shown proxy.index).contents
          rw [returns] at kept
          exact kept.trans (seated.size_shown proxy.index)
      · rcases shows with rfl | rfl <;> exact faults

/-- What reaches an index once reaches it after every run. -/
theorem Reaches.run {pool : Pool σ} {live : Finset Nat} (orderly : pool.slab.Orderly live)
    {proxy : Proxy} (reaches : pool.Reaches proxy) (commands : List Command) :
    (pool.run commands).2.Reaches proxy where
  own := by rw [run_id]; exact reaches.own
  inside := Nat.lt_of_lt_of_le reaches.inside (run_continues orderly commands).capacity_le

/-- Every index at which a pool has once pointed a proxy stays addressable in all that follows,
whatever becomes of its record. -/
theorem bound_indices_stay_addressable (declarations : List Declaration)
    (earlier later : List Command) (command : Command) :
    OfEveryKind fun _ _ _ opened =>
      Layout.ofDeclarations declarations = .ok opened.layout →
        ∀ index, ((opened.run earlier).2.call command).Binds index →
          (opened.run (earlier ++ command :: later)).2.Addressable ⟨opened.id, index⟩ := by
  apply ofEveryRunSeated
  intro σ _ _ opened blocks seated orderly built index binds
  rcases run_orderly orderly earlier with ⟨_, orderlyBefore⟩
  rcases step_orderly orderlyBefore command with ⟨_, orderlyAfter⟩
  have reaches : ((opened.run earlier).2.step command).2.Reaches ⟨opened.id, index⟩ := {
    own := by rw [step_id, run_id]
    inside := binds.lt_capacity orderlyBefore }
  have runs : (opened.run (earlier ++ command :: later)).2 =
      (((opened.run earlier).2.step command).2.run later).2 := run_append opened earlier _
  have seatedFinally := seated.run orderly (earlier ++ command :: later)
  have builtFinally : Layout.ofDeclarations declarations =
      .ok (opened.run (earlier ++ command :: later)).2.layout := by
    rw [run_layout]
    exact built
  have reachesFinally := reaches.run orderlyAfter later
  rw [← runs] at reachesFinally
  exact addressable_of_reaches builtFinally blocks seatedFinally reachesFinally

/-- A record that is created, deleted and then forgotten. -/
theorem forgotten_index_addressable :
    ∃ layout pool, Fixture.particle.layout = .ok layout ∧
      ofConfig ⟨0⟩ layout {} = .ok pool ∧
      Layout.ofDeclarations Fixture.particle.declarations = .ok pool.layout ∧
      ((pool.run []).2.call (.create (.unbound ⟨0⟩))).Binds 0 ∧
      (pool.run ([] ++ .create (.unbound ⟨0⟩) :: [.deleteId 0, .clear])).2.Addressable
        ⟨pool.id, 0⟩ := by
  have opened : ∃ layout pool, Fixture.particle.layout = .ok layout ∧
      ofConfig ⟨0⟩ layout {} = .ok pool ∧
      Layout.ofDeclarations Fixture.particle.declarations = .ok pool.layout ∧
      (pool.step (.create (.unbound ⟨0⟩))).1 = .ok (.proxy ⟨⟨0⟩, 0⟩) := ⟨_, _, rfl, rfl, rfl, rfl⟩
  rcases opened with ⟨layout, pool, built, openedPool, builtPool, created⟩
  have binds : ((pool.run []).2.call (.create (.unbound ⟨0⟩))).Binds 0 := .created rfl created rfl
  exact ⟨layout, pool, built, openedPool, builtPool, binds,
    (bound_indices_stay_addressable _ _ _ _).1 _ _ _ _ _ openedPool builtPool 0 binds⟩

end RecordPool.Pool
