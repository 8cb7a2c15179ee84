import RecordPool.Fixtures
import RecordPool.Proofs.Pool.LifeEvents
import RecordPool.Proofs.Pool.Opening
import RecordPool.Proofs.Pool.SlabSteps

/-!
# High-water mark and room

The high-water mark tells of the calls since all records were last forgotten.  A pool that
reuses records has it at the most records that were live at once; one that only appends has
it at the number of records that were allotted.  The room for records never shrinks, and
there is no more of it than was asked for, or than twice the highest mark.
-/

namespace RecordPool.Pool

open LawfulStore

variable {σ : Type}

/-- Whether a record was allotted in a call: a creation was answered, or it ended in a fault and
left one more record live. -/
def Call.allots (call : Call σ) : Bool :=
  match call.command, call.answer with
  | .create _, .ok _ => true
  | .create _, .error (.fault _) => decide (call.before.liveCount < call.after.liveCount)
  | _, _ => false

/-- The number of records for which a call made sure of room. -/
def Call.roomMade (call : Call σ) : Nat :=
  match call.command, call.answer with
  | .reserve count, .ok _ => count
  | _, _ => 0

/-- The largest figure of the calls, zero if there are none. -/
def most (figure : Call σ → Nat) (calls : List (Call σ)) : Nat :=
  calls.foldl (fun largest call => max largest (figure call)) 0

theorem most_concat (figure : Call σ → Nat) (calls : List (Call σ)) (call : Call σ) :
    most figure (calls ++ [call]) = max (most figure calls) (figure call) := by
  rw [most, List.foldl_append]
  rfl

theorem Call.allots_of_not_creates {call : Call σ} (other : call.command.creates = false) :
    call.allots = false := by
  rcases call with ⟨before, command, answer, after⟩
  cases command <;> first | rfl | cases other

theorem Call.clears_of_allots {call : Call σ} (allots : call.allots = true) :
    call.command.clears = false := by
  rcases call with ⟨before, command, answer, after⟩
  cases command <;> first | rfl | cases allots

/-- Where no creation is answered and as many records are live as before, none was allotted. -/
theorem Call.allots_of_fruitless {call : Call σ}
    (fruitless : call.command.creates = true → call.answer.isOk = false)
    (live : call.after.liveCount = call.before.liveCount) : call.allots = false := by
  rcases call with ⟨before, command, answer, after⟩
  cases command with
  | create proxy =>
      have unanswered := fruitless rfl
      cases answer with
      | ok reply => cases unanswered
      | error failure =>
          cases failure with
          | refused error => rfl
          | fault fault => exact decide_eq_false (Nat.not_lt.mpr live.le)
  | _ => rfl

variable [Store σ]

/-- What a call does to the high-water mark. -/
inductive MovesMark (call : Call σ) : Prop where
  /-- No record is allotted, and the mark stays. -/
  | keeps (unallotted : call.allots = false) (remembers : call.command.clears = false)
      (mark : call.after.highWater = call.before.highWater) : MovesMark call
  /-- A freed record is allotted again, and the mark stays. -/
  | reuses (allots : call.allots = true) (policy : call.before.slab.policy = .reuse)
      (mark : call.after.highWater = call.before.highWater) : MovesMark call
  /-- The record at the mark is allotted, and the mark rises. -/
  | raises (allots : call.allots = true)
      (unfreed : call.before.slab.policy = .appendOnly ∨ call.after.slab.freed = [])
      (mark : call.after.highWater = call.before.highWater + 1)
      (fresh : call.before.isLive call.before.highWater = false)
      (isLive : call.after.isLive call.before.highWater = true)
      (answered : ∀ pointed, call.answer = .ok (.proxy pointed) →
        pointed.index = call.before.highWater) : MovesMark call
  /-- All records are forgotten. -/
  | resets (clears : call.command.clears = true) (mark : call.after.highWater = 0) :
      MovesMark call

variable [LawfulStore σ] {pool : Pool σ} {live : Finset Nat}

theorem movesMark_of_handsOut (orderly : pool.slab.Orderly live) {proxy : Proxy} {index : Nat}
    {answer : Answer} {middle : Slab σ} {after : Pool σ}
    (handsOut : Slab.HandsOut pool.slab index middle)
    (finished : Slab.ElementsOnly middle after.slab)
    (answered : answer = .ok (.proxy (proxy.pointAt index)) ∨
      ∃ fault, answer = .error (.fault fault)) :
    MovesMark ⟨pool, .create proxy, answer, after⟩ := by
  obtain ⟨notLive, account⟩ := handsOut.accounts orderly.account
  have mark := finished.storeOnly.highWater_eq
  have freed := finished.storeOnly.freed_eq
  have same := finished.storeOnly.live_eq
  have more : after.liveCount = pool.liveCount + 1 := by
    rw [liveCount_eq orderly, ← Finset.card_insert_of_notMem notLive,
      ← account.represents.count_eq]
    exact congrArg IndexSet.count same
  have isLive : after.isLive index = true := by
    change after.slab.live.contains index = true
    rw [same]
    exact (account.isLive_eq index).trans (decide_eq_true (Finset.mem_insert_self _ _))
  have allots : Call.allots ⟨pool, .create proxy, answer, after⟩ = true := by
    rcases answered with rfl | ⟨fault, rfl⟩
    · rfl
    · exact decide_eq_true (more ▸ Nat.lt_succ_self _)
  have points : ∀ pointed, answer = .ok (.proxy pointed) → pointed.index = index := by
    rintro pointed rfl
    rcases answered with returned | ⟨fault, failed⟩
    · cases returned
      rfl
    · cases failed
  cases handsOut with
  | again reuses _ => exact .reuses allots reuses mark
  | next unfreed _ _ =>
      refine .raises allots (unfreed.imp_right freed.trans) mark ?_ isLive points
      exact (orderly.account.isLive_eq _).trans (decide_eq_false notLive)

theorem movesMark_of_step (orderly : pool.slab.Orderly live) {command : Command}
    (remembers : command.clears = false) {answer : Answer} {after : Pool σ}
    (step : SlabStep pool command answer after.slab) :
    MovesMark ⟨pool, command, answer, after⟩ := by
  generalize left : after.slab = slab at step
  cases step with
  | elements elementsOnly fruitless _ =>
      subst left
      refine .keeps (Call.allots_of_fruitless ?_ ?_) remembers elementsOnly.storeOnly.highWater_eq
      · intro creates
        apply fruitless
        cases command <;> first | rfl | cases creates
      · exact congrArg IndexSet.count elementsOnly.storeOnly.live_eq
  | reserved storeOnly _ =>
      subst left
      exact .keeps rfl rfl storeOnly.highWater_eq
  | handedOut handsOut finished answered =>
      subst left
      exact movesMark_of_handsOut orderly handsOut finished answered
  | takenBack deletes _ =>
      have mark : after.highWater = pool.highWater := by
        rw [highWater, left]
        rfl
      refine .keeps (Call.allots_of_not_creates ?_) remembers mark
      cases command <;> first | rfl | cases deletes
  | cleared => cases remembers

/-- Every call moves the mark in one of these ways. -/
theorem call_movesMark (orderly : pool.slab.Orderly live) (command : Command) :
    MovesMark (pool.call command) := by
  cases clears : command.clears with
  | false => exact movesMark_of_step orderly clears (step_slab orderly command)
  | true =>
      refine .resets clears ?_
      cases command <;> first | rfl | cases clears

/-! ## What the mark tells -/

/-- The high-water mark, as the calls since all records were forgotten have it, and the room, as
all calls have it. -/
structure Reckons (room : Nat) (pool : Pool σ) (calls : List (Call σ)) : Prop where
  reuse : pool.slab.policy = .reuse →
    pool.highWater = most (fun call => call.after.liveCount) (sinceClear calls)
  appendOnly : pool.slab.policy = .appendOnly →
    pool.highWater = (sinceClear calls).countP Call.allots
  capacity_le : pool.capacity ≤ max room
    (max (most Call.roomMade calls) (2 * most (fun call => call.after.highWater) calls))

omit [LawfulStore σ] in
theorem reckons_blank (id : PoolId) (layout : Layout) (store : σ) (config : Config) :
    Reckons (blank id layout store config).capacity (blank id layout store config) [] where
  reuse _ := rfl
  appendOnly _ := rfl
  capacity_le := Nat.le_max_left _ _

/-- No more records are live than the mark says. -/
theorem liveCount_le_highWater (orderly : pool.slab.Orderly live) :
    pool.liveCount ≤ pool.highWater :=
  Nat.le.intro orderly.account.liveCount_add_freeCount

theorem liveCount_eq_highWater (orderly : pool.slab.Orderly live) (freed : pool.slab.freed = []) :
    pool.liveCount = pool.highWater := by
  have sum := orderly.account.liveCount_add_freeCount
  rw [Slab.freeCount, freed] at sum
  exact sum

/-- A call leaves no more room than there was, than it made sure of, or than twice the mark. -/
theorem capacity_le_of_step {command : Command} {answer : Answer} {after : Pool σ}
    (step : SlabStep pool command answer after.slab) :
    after.capacity ≤ max pool.capacity
      (max (Call.roomMade ⟨pool, command, answer, after⟩) (2 * after.highWater)) := by
  have of_eq (same : after.capacity = pool.capacity) : after.capacity ≤ max pool.capacity
      (max (Call.roomMade ⟨pool, command, answer, after⟩) (2 * after.highWater)) :=
    Nat.le_trans same.le (Nat.le_max_left _ _)
  generalize left : after.slab = slab at step
  cases step with
  | elements elementsOnly _ _ =>
      subst left
      exact of_eq elementsOnly.capacity_eq
  | @reserved count _ _ _ room =>
      subst left
      cases answer with
      | error failure => exact of_eq room
      | ok reply =>
          have size : after.capacity = max pool.capacity count := room
          have asked : Call.roomMade ⟨pool, .reserve count, .ok reply, after⟩ = count := rfl
          omega
  | handedOut handsOut finished _ =>
      subst left
      have same : after.capacity = _ := finished.capacity_eq
      have mark : after.highWater = _ := finished.storeOnly.highWater_eq
      cases handsOut with
      | again reuses freed => exact of_eq same
      | next unfreed room becomes =>
          have grown := Slab.sizeAfterAppend_le pool.slab
          have size : after.capacity = Slab.sizeAfterAppend pool.slab :=
            same.trans becomes.size_eq
          have raised : after.highWater = pool.slab.highWater + 1 := mark
          rw [size, raised]
          change _ ≤ max pool.slab.capacity _
          omega
  | takenBack _ _ =>
      apply of_eq
      rw [capacity, left]
      rfl
  | cleared =>
      apply of_eq
      rw [capacity, left]
      rfl

/-- Under `reuse` the mark rises only where more records are live than ever since all records
were forgotten. -/
theorem MovesMark.mostLive {call : Call σ} (moves : MovesMark call) {calls : List (Call σ)}
    (policy : call.before.slab.policy = .reuse) (orderlyAfter : call.after.slab.Orderly live)
    (before : call.before.highWater =
      most (fun call => call.after.liveCount) (sinceClear calls)) :
    call.after.highWater =
      most (fun call => call.after.liveCount) (sinceClear (calls ++ [call])) := by
  have below := liveCount_le_highWater orderlyAfter
  cases moves with
  | keeps _ remembers mark =>
      rw [sinceClear_of_remembers remembers, most_concat, ← before, mark]
      omega
  | reuses allots _ mark =>
      rw [sinceClear_of_remembers (Call.clears_of_allots allots), most_concat, ← before, mark]
      omega
  | raises allots unfreed mark _ _ _ =>
      -- Records at the mark are only allotted where none is freed: all those below are live.
      have noneFreed : call.after.slab.freed = [] := by
        rcases unfreed with appendOnly | noneFreed
        · cases policy.symm.trans appendOnly
        · exact noneFreed
      have full := liveCount_eq_highWater orderlyAfter noneFreed
      rw [sinceClear_of_remembers (Call.clears_of_allots allots), most_concat, ← before, full,
        mark]
      omega
  | resets clears mark =>
      rw [sinceClear_of_clears clears]
      exact mark

omit [Store σ] [LawfulStore σ] in
/-- Under `appendOnly` the mark rises with every record that is allotted. -/
theorem MovesMark.allotted {call : Call σ} (moves : MovesMark call) {calls : List (Call σ)}
    (policy : call.before.slab.policy = .appendOnly)
    (before : call.before.highWater = (sinceClear calls).countP Call.allots) :
    call.after.highWater = (sinceClear (calls ++ [call])).countP Call.allots := by
  cases moves with
  | keeps unallotted remembers mark =>
      rw [sinceClear_of_remembers remembers, countP_concat, unallotted, mark, before]
      rfl
  | reuses _ reuses _ => cases policy.symm.trans reuses
  | raises allots _ mark _ _ _ =>
      rw [sinceClear_of_remembers (Call.clears_of_allots allots), countP_concat, allots, mark,
        before]
      rfl
  | resets clears mark =>
      rw [sinceClear_of_clears clears]
      exact mark

/-- What the calls tell is kept up from one call to the next. -/
theorem Reckons.step {room : Nat} {calls : List (Call σ)} (reckons : Reckons room pool calls)
    (orderly : pool.slab.Orderly live) (command : Command) :
    Reckons room (pool.step command).2 (calls ++ [pool.call command]) := by
  have slabStep := step_slab orderly command
  have continues := slabStep.continues orderly.sound
  have moves := call_movesMark orderly command
  rcases step_orderly orderly command with ⟨_, orderlyAfter⟩
  constructor
  case reuse =>
    intro policy
    have policyBefore := continues.policy_eq.symm.trans policy
    exact moves.mostLive policyBefore orderlyAfter (reckons.reuse policyBefore)
  case appendOnly =>
    intro policy
    have policyBefore := continues.policy_eq.symm.trans policy
    exact moves.allotted policyBefore (reckons.appendOnly policyBefore)
  case capacity_le =>
    have before := reckons.capacity_le
    have bound := capacity_le_of_step slabStep
    change _ ≤ max _ (max (pool.call command).roomMade (2 * (pool.call command).after.highWater))
      at bound
    rw [most_concat, most_concat]
    omega

theorem Reckons.run {room : Nat} {calls : List (Call σ)} (reckons : Reckons room pool calls)
    (orderly : pool.slab.Orderly live) (commands : List Command) :
    Reckons room (pool.run commands).2 (calls ++ pool.calls commands) := by
  -- That the slab is orderly has to be kept as well.
  refine (run_keeps (fun pool calls => Reckons room pool calls ∧ ∃ live, pool.slab.Orderly live)
    ?_ ⟨reckons, live, orderly⟩ fun _ _ => trivial).1
  rintro pool calls command ⟨before, live, orderlyBefore⟩ -
  exact ⟨before.step orderlyBefore command, step_orderly orderlyBefore command⟩

/-! ## Pools at all times -/

/-- What the high-water mark and the capacity of a pool have to do with the calls made to it
since it was opened. -/
structure FollowsCalls (opened pool : Pool σ) (calls : List (Call σ)) : Prop where
  reuse : opened.slab.policy = .reuse →
    pool.highWater = most (fun call => call.after.liveCount) (sinceClear calls)
  appendOnly : opened.slab.policy = .appendOnly →
    pool.highWater = (sinceClear calls).countP Call.allots
  /-- Records are numbered in the order in which they are allotted. -/
  numbered : opened.slab.policy = .appendOnly → ∀ command,
    (pool.call command).allots = true →
      let number := (sinceClear calls).countP Call.allots
      pool.isLive number = false ∧ (pool.step command).2.isLive number = true ∧
        ∀ pointed, (pool.step command).1 = .ok (.proxy pointed) → pointed.index = number
  highWater_le : pool.highWater ≤ pool.capacity
  capacity_grows : ∀ command, pool.capacity ≤ (pool.step command).2.capacity
  maxSize_eq : Store.maxSize pool.slab.store = Store.maxSize opened.slab.store
  capacity_le_maxSize : pool.capacity ≤ Store.maxSize pool.slab.store
  capacity_le : pool.capacity ≤ max opened.capacity
    (max (most Call.roomMade calls) (2 * most (fun call => call.after.highWater) calls))
  /-- With memory at hand, room is made for as many records as the store may have. -/
  reserve : Store.Ample opened.slab.store → ∀ count,
    let asked := pool.step (.reserve count)
    (asked.1.isOk = true ↔ count ≤ Store.maxSize pool.slab.store) ∧
      (asked.1.isOk = true → asked.2.capacity = max pool.capacity count)

theorem followsCalls {opened : Pool σ} (orderly : opened.slab.Orderly ∅)
    (reckons : Reckons opened.capacity opened []) (commands : List Command) :
    FollowsCalls opened (opened.run commands).2 (opened.calls commands) := by
  have continues := run_continues orderly commands
  have reckoned := reckons.run orderly commands
  rw [List.nil_append] at reckoned
  rcases run_orderly orderly commands with ⟨live, orderlyNow⟩
  constructor
  case reuse => exact fun policy => reckoned.reuse (continues.policy_eq.trans policy)
  case appendOnly => exact fun policy => reckoned.appendOnly (continues.policy_eq.trans policy)
  case numbered =>
    intro policy command allots
    have policyNow := continues.policy_eq.trans policy
    have mark := reckoned.appendOnly policyNow
    cases call_movesMark orderlyNow command with
    | keeps unallotted _ _ => cases allots.symm.trans unallotted
    | reuses _ reuses _ => cases policyNow.symm.trans reuses
    | raises _ _ _ fresh isLive answered =>
        rw [← mark]
        exact ⟨fresh, isLive, answered⟩
    | resets clears _ =>
        rw [Call.clears_of_allots allots] at clears
        cases clears
  case highWater_le => exact orderlyNow.highWater_le
  case capacity_grows =>
    exact fun command => ((step_slab orderlyNow command).continues orderlyNow.sound).capacity_le
  case maxSize_eq => exact continues.maxSize_eq
  case capacity_le_maxSize => exact size_le_maxSize orderlyNow.sound
  case capacity_le => exact reckoned.capacity_le
  case reserve =>
    intro ample count
    refine ⟨reserve_isOk_iff orderlyNow.sound (continues.ample ample) count, fun done => ?_⟩
    rw [reserve_room orderlyNow.sound, if_pos done]

/-- In every pool the high-water mark and the capacity follow the calls. -/
theorem mark_and_room_follow_calls (commands : List Command) :
    OfEveryKind fun _ _ _ opened =>
      FollowsCalls opened (opened.run commands).2 (opened.calls commands) := by
  apply ofEveryKind
  intro σ _ _ id layout store config sound _
  exact followsCalls (orderly_blank sound id layout config)
    (reckons_blank id layout store config) commands

/-- A pool that only appends, on a heap, after its records were once forgotten. -/
theorem appending_pool_follows_calls :
    ∃ layout pool, Fixture.int.layout = .ok layout ∧
      ofConfig ⟨0⟩ layout { policy := .appendOnly } = .ok pool ∧
      pool.slab.policy = .appendOnly ∧ Store.Ample pool.slab.store ∧
      let commands := [.create (.unbound ⟨0⟩), .clear, .reserve 40, .create (.unbound ⟨0⟩)]
      FollowsCalls pool (pool.run commands).2 (pool.calls commands) := by
  have opened : ∃ layout pool, Fixture.int.layout = .ok layout ∧
      ofConfig ⟨0⟩ layout { policy := .appendOnly } = .ok pool ∧
      pool.slab.policy = .appendOnly := ⟨_, _, rfl, rfl, rfl⟩
  rcases opened with ⟨layout, pool, built, opened, policy⟩
  have ample : Store.Ample pool.slab.store := by
    rcases ofConfig_ok opened with ⟨store, -, ample, made⟩
    rcases ofStore_ok made with ⟨-, rfl⟩
    exact ample System.usual.serves_heap
  exact ⟨layout, pool, built, opened, policy, ample,
    (mark_and_room_follow_calls _).1 _ _ _ _ _ opened⟩

/-- A creation that ends in a fault after a record was allotted raises the mark, and the record
of the first creation that is answered then is not the first. -/
theorem failed_creation_raises_mark :
    ∃ layout pool, Fixture.int.layout = .ok layout ∧
      ofConfig ⟨0⟩ layout { policy := .appendOnly } = .ok pool ∧
      Store.maxSize pool.slab.store < Address.limit - 1 ∧
      let failing : List Command := [.setInitializer (some (RecordWrite.editAll [.idAt 0])),
        .create (.unbound ⟨0⟩)]
      let failed := (pool.run failing).2
      (pool.calls failing).countP (fun call => call.command.creates && call.answer.isOk) = 0 ∧
      failed.highWater = 1 ∧
      (failed.run [.setInitializer none, .create (.unbound ⟨0⟩)]).1 =
        [.ok .done, .ok (.proxy ⟨⟨0⟩, 1⟩)] := by
  refine ⟨_, _, rfl, rfl, ?_, ?_, ?_, ?_⟩
  · decide +kernel
  · rfl
  · rfl
  · rfl

end RecordPool.Pool
