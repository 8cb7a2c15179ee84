import RecordPool.Proofs.Store.Chain.Shape

/-!
# Interrupted growth

Memory may run out at any request for it, in the middle of the walk over the sub-arrays of a
chain.  The sub-arrays before the one that was refused stay longer then, or are more numerous,
than the size of the chain says, and later requests find them so.  The elements of the chain are
the same nevertheless, and so they are after any number of interruptions.
-/

namespace RecordPool.Chain

variable {σ : Type} [SubStore σ] [LawfulSubStore σ] {chain left : Chain σ}
  {array count needed remaining : Nat} {failure : Failure Store.Error}

/-- A sub-array that is refused is as long as before, as the others are. -/
theorem growArray_refused_lengths (sound : chain.Sound)
    (refused : growArray array count chain = .error failure left) (other : Nat) :
    left.arraySize other = chain.arraySize other := by
  unfold growArray at refused
  cases present : chain.arrays[array]? with
  | some store =>
      cases resized : Store.resize count store with
      | ok _ grown =>
          simp only [present, resized] at refused
          cases refused
      | error failure declined =>
          have becomes := LawfulStore.resize_error (sound.fits present).sound resized
          simp only [present, resized] at refused
          cases refused
          exact (SameLengths.withArray present becomes.size_eq).arraySize_eq other
  | none =>
      cases opened : SubStore.allocate (σ := σ) chain.system chain.attempts
          chain.elementSize count with
      | ok store =>
          simp only [present, opened] at refused
          cases refused
      | error failure =>
          simp only [present, opened] at refused
          cases refused
          rfl

/-- A walk that is refused passed some sub-arrays before the one that was. -/
theorem growArrays_refused (sound : chain.Sound) (fits : count < Address.limit)
    (all : needed = chain.arraysFor count) (reached : array + remaining ≤ needed)
    (next : array ≤ chain.arrays.size)
    (refused : growArrays count needed array remaining chain = .error failure left) :
    ∃ passed middle, passed < remaining ∧
      growArrays count needed array passed chain = .ok () middle ∧
      growArray (array + passed) (chain.target count (array + passed)) middle =
        .error failure left := by
  -- The sub-array at hand refuses, or the rest of the walk is refused after it.
  induction remaining generalizing array chain with
  | zero => cases refused
  | succ remaining ih =>
      have here : array < needed := by omega
      rw [growArrays_succ sound.arrayLength_pos fits all here, bind_apply] at refused
      have step := growArray_spec (chain.target count array) sound next
      cases first : growArray array (chain.target count array) chain with
      | error other stopped =>
          rw [first] at refused
          cases refused
          exact ⟨0, chain, Nat.succ_pos remaining, rfl, first⟩
      | ok _ second =>
          rw [first] at refused step
          obtain ⟨regrown, nextInside, -⟩ := step
          have stillAll : needed = second.arraysFor count := by
            rw [regrown.arraysFor_eq, all]
          obtain ⟨passed, middle, fewer, walked, stopped⟩ :=
            ih (regrown.sound sound) stillAll (by omega) nextInside refused
          refine ⟨passed + 1, middle, Nat.succ_lt_succ fewer, ?_, ?_⟩
          · rw [growArrays_succ sound.arrayLength_pos fits all here, bind_apply, first]
            exact walked
          · rw [regrown.target_eq, Nat.add_right_comm, Nat.add_assoc] at stopped
            exact stopped

/-- Growth that a sub-array was refused: those before it are as long as they were to be, and
the others as long as before. -/
structure Interrupted (count : Nat) (failure : Failure Store.Error) (before after : Chain σ)
    (array : Nat) : Prop where
  reached : array < before.arraysFor count
  refused : ∃ middle, growArrays count (before.arraysFor count) 0 array before = .ok () middle ∧
    growArray array (before.target count array) middle = .error failure after
  arraySize_eq : ∀ other, after.arraySize other =
    if other < array then max (before.arraySize other) (before.target count other)
    else before.arraySize other

theorem resize_interrupted (sound : chain.Sound) (within : count ≤ chain.maxSize)
    (refused : Chain.resize count chain = .error failure left) :
    ∃ array, Interrupted count failure chain left array := by
  have fits := lt_limit_of_le_maxSize within
  by_cases smaller : count ≤ chain.size
  · rw [resize_within smaller] at refused
    cases refused
  · rw [resize_larger sound.arrayLength_pos smaller within] at refused
    cases walked : growArrays count (chain.arraysFor count) 0 (chain.arraysFor count) chain with
    | ok _ grown =>
        rw [walked] at refused
        cases refused
    | error other stopped =>
        rw [walked] at refused
        cases refused
        obtain ⟨array, middle, reached, passed, stopped⟩ := growArrays_refused sound fits rfl
          (Nat.le_of_eq (Nat.zero_add _)) (Nat.zero_le _) walked
        rw [Nat.zero_add] at stopped
        refine ⟨array, reached, ⟨middle, passed, stopped⟩, fun other => ?_⟩
        have part : 0 + array ≤ chain.arraysFor count := by omega
        have walk := growArrays_spec array sound fits rfl part (Nat.zero_le _)
          (fun earlier below => absurd below (Nat.not_lt_zero earlier))
        rw [passed] at walk
        obtain ⟨-, lengths⟩ := growArrays_lengths sound fits rfl part (Nat.zero_le _) passed
        rw [growArray_refused_lengths (walk.1.sound sound) stopped, lengths]
        simp only [Nat.zero_le, Nat.zero_add, true_and]

/-- What can be relied on about a chain whose memory may run out. -/
structure Unharmed (chain : Chain σ) : Prop where
  /-- All elements are there. -/
  available : ∀ {index : Nat}, index < chain.size →
    ∃ contents, chain.element index = .ok contents ∧ contents.size = chain.elementSize
  /-- A request that is refused changes nothing that can be seen. -/
  refused : ∀ {count : Nat} {failure : Failure Store.Error} {left : Chain σ},
    Chain.resize count chain = .error failure left →
    left.size = chain.size ∧ ∀ index, left.element index = chain.element index
  /-- It is refused for its size, or by a sub-array. -/
  cause : ∀ {count : Nat} {failure : Failure Store.Error} {left : Chain σ},
    Chain.resize count chain = .error failure left →
    chain.maxSize < count ∧ failure = .refused (.capacityExceeded count chain.maxSize) ∧
        left = chain ∨
      count ≤ chain.maxSize ∧ ∃ array, Interrupted count failure chain left array
  /-- Growth keeps the elements there are, and the new ones are zero. -/
  grown : ∀ {count : Nat} {grown : Chain σ}, Chain.resize count chain = .ok () grown →
    grown.size = max chain.size count ∧
      (∀ index, index < chain.size → grown.element index = chain.element index) ∧
      ∀ index, chain.size ≤ index → index < grown.size →
        grown.element index = .ok (Buffer.zeros chain.elementSize)

theorem unharmed_of_sound (sound : chain.Sound) : Unharmed chain where
  available inside := by
    have lawful : LawfulStore.Sound chain := sound
    exact ⟨_, LawfulStore.element_inside lawful inside, LawfulStore.size_contents lawful _⟩
  refused refused := by
    have lawful : LawfulStore.Sound chain := sound
    have becomes := resize_error sound refused
    refine ⟨becomes.size_eq, fun index => ?_⟩
    exact (LawfulStore.element_of_becomes becomes index).trans
      (LawfulStore.element_eq lawful index).symm
  cause {count failure left} refused := by
    by_cases beyond : chain.maxSize < count
    · have larger : ¬ count ≤ chain.size :=
        Nat.not_le.mpr (Nat.lt_of_le_of_lt sound.size_le_maxSize beyond)
      rw [resize_beyond larger beyond] at refused
      cases refused
      exact .inl ⟨beyond, rfl, rfl⟩
    · have within := Nat.le_of_not_lt beyond
      exact .inr ⟨within, resize_interrupted sound within refused⟩
  grown {count grown} done := by
    have lawful : LawfulStore.Sound chain := sound
    have becomes := resize_ok sound done
    have size : grown.size = max chain.size count := becomes.size_eq
    have read : ∀ index, index < grown.size →
        grown.element index = .ok (Elements.contents chain index) := by
      intro index inside
      have element := LawfulStore.element_of_becomes becomes index
      rw [if_pos (size ▸ inside)] at element
      exact element
    refine ⟨size, fun index inside => ?_, fun index new inside => ?_⟩
    · rw [read index (by omega)]
      exact (LawfulStore.element_inside lawful inside).symm
    · rw [read index inside, LawfulStore.contents_outside lawful new]
      rfl

/-- However often memory ran out before, no chain is harmed. -/
theorem all_stay_unharmed {system : System} {elementSize arrayLength count maxArrays : Nat}
    {chain : Chain σ}
    (opened : createBounded elementSize arrayLength count maxArrays system = .ok chain)
    (requests : List Store.Request) : Unharmed (Store.after chain requests) := by
  have fresh : Store.Fresh elementSize count chain := (createBounded_ok opened).1
  exact unharmed_of_sound (Store.after_sound fresh.sound requests)

/-- The first sub-array is refused its growth, then the second one its opening; the third request
for the same size finds a full sub-array and is met. -/
theorem faltering_chain_stays_unharmed :
    ∃ chain : Chain Mapped, createBounded 2 4 3 16 .faltering = .ok chain ∧
      let grow : Store.Request := .operation (.resize 10)
      let lengths := fun requests =>
        (Store.after chain requests).arrays.toList.map Elements.size
      lengths [] = [3] ∧ lengths [grow] = [3] ∧ lengths [grow, grow] = [4] ∧
      lengths [grow, grow, grow] = [4, 4, 2] ∧
      Unharmed (Store.after chain [grow, grow]) := by
  have opened : ∃ chain : Chain Mapped, createBounded 2 4 3 16 .faltering = .ok chain ∧
      let grow : Store.Request := .operation (.resize 10)
      let lengths := fun requests =>
        (Store.after chain requests).arrays.toList.map Elements.size
      lengths [] = [3] ∧ lengths [grow] = [3] ∧ lengths [grow, grow] = [4] ∧
      lengths [grow, grow, grow] = [4, 4, 2] :=
    ⟨_, rfl, by decide +kernel, by decide +kernel, by decide +kernel, by decide +kernel⟩
  obtain ⟨chain, opened, atFirst, once, twice, thrice⟩ := opened
  exact ⟨chain, opened, atFirst, once, twice, thrice, all_stay_unharmed opened _⟩

end RecordPool.Chain
