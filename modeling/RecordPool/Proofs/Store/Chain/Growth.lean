import RecordPool.Proofs.Store.Chain.Lengths
import RecordPool.Proofs.Store.Contract

/-!
# Growth of chains

When the growth of a chain is refused halfway, some sub-arrays stay longer, or more
numerous, than the size of the chain says.  The invariant of a chain allows for that: it
asks that the sub-arrays hold all elements of the chain and that what they hold beyond
these is zero.  The growth of sub-arrays keeps it whether it is refused or not.
-/

namespace RecordPool.Chain

variable {σ : Type}

/-- The chain with another store in the place of a sub-array. -/
def withArray (chain : Chain σ) (array : Nat) (store : σ) : Chain σ :=
  { chain with arrays := chain.arrays.setIfInBounds array store }

theorem getElem?_withArray {chain : Chain σ} {array : Nat} {store : σ}
    (present : chain.arrays[array]? = some store) (after : σ) (other : Nat) :
    (chain.withArray array after).arrays[other]? =
      if other = array then some after else chain.arrays[other]? := by
  have inside : array < chain.arrays.size := (Array.getElem?_eq_some_iff.mp present).1
  simp only [withArray, Array.getElem?_setIfInBounds]
  by_cases same : array = other
  · rw [if_pos same, if_pos same.symm, if_pos inside]
  · rw [if_neg same, if_neg (Ne.symm same)]

/-- The last of the stores put in one place stays there. -/
theorem withArray_withArray (chain : Chain σ) (array : Nat) (first second : σ) :
    (chain.withArray array first).withArray array second = chain.withArray array second := by
  simp only [withArray, Array.setIfInBounds_setIfInBounds]

theorem withArray_comm (chain : Chain σ) {left right : Nat} {first second : σ}
    (apart : left ≠ right) :
    (chain.withArray left first).withArray right second =
      (chain.withArray right second).withArray left first := by
  simp only [withArray, Array.setIfInBounds_comm first second apart]

variable [SubStore σ] [LawfulSubStore σ]

/-- The number of elements of a sub-array, zero where there is none. -/
def arraySize (chain : Chain σ) (array : Nat) : Nat :=
  match chain.arrays[array]? with
  | some store => Elements.size store
  | none => 0

/-- The contents of an element of a sub-array, zero where there is none. -/
def arrayContents (chain : Chain σ) (array localIndex : Nat) : Buffer :=
  match chain.arrays[array]? with
  | some store => Elements.contents store localIndex
  | none => Buffer.zeros chain.elementSize

/-- A store is one that was opened on a system for elements of a size, and may have been grown
or written since. -/
structure Fits (system : System) (elementSize : Nat) (store : σ) : Prop where
  sound : LawfulStore.Sound store
  elementSize_eq : Elements.elementSize store = elementSize
  bound : ∀ count, LawfulSubStore.Supplies σ system elementSize count →
    count ≤ Store.maxSize store ∧ LawfulStore.Affords store count

/-- The states that a chain can be in. -/
structure Sound (chain : Chain σ) : Prop where
  elementSize_pos : 0 < chain.elementSize
  arrayLength_pos : 0 < chain.arrayLength
  size_le_maxSize : chain.size ≤ chain.maxSize
  fits : ∀ {array : Nat} {store : σ}, chain.arrays[array]? = some store →
    Fits chain.system chain.elementSize store
  /-- The sub-arrays hold all elements. -/
  covered : ∀ index, index < chain.size →
    index % chain.arrayLength < chain.arraySize (index / chain.arrayLength)
  /-- What they hold beyond these is zero. -/
  blank : ∀ array localIndex, localIndex < chain.arrayLength →
    chain.size ≤ array * chain.arrayLength + localIndex →
    chain.arrayContents array localIndex = Buffer.zeros chain.elementSize

/-- Memory is there for all sub-arrays. -/
def Affords (chain : Chain σ) (_ : Nat) : Prop :=
  ∀ count, count ≤ chain.arrayLength →
    LawfulSubStore.Supplies σ chain.system chain.elementSize count

theorem Fits.of_becomes {system : System} {elementSize size : Nat} {store after : σ}
    {contents : Nat → Buffer} (fits : Fits system elementSize store)
    (becomes : Store.Becomes LawfulStore.Sound LawfulStore.Affords store after size contents) :
    Fits system elementSize after where
  sound := becomes.sound
  elementSize_eq := becomes.elementSize_eq.trans fits.elementSize_eq
  bound count supplied := by
    rw [becomes.maxSize_eq, becomes.affords_iff]
    exact fits.bound count supplied

omit [LawfulSubStore σ] in
theorem arraySize_withArray {chain : Chain σ} {array : Nat} {store : σ}
    (present : chain.arrays[array]? = some store) (after : σ) (other : Nat) :
    (chain.withArray array after).arraySize other =
      if other = array then Elements.size after else chain.arraySize other := by
  unfold arraySize
  rw [getElem?_withArray present]
  by_cases same : other = array
  · simp [same]
  · simp [same]

omit [LawfulSubStore σ] in
theorem arrayContents_withArray {chain : Chain σ} {array : Nat} {store : σ}
    (present : chain.arrays[array]? = some store) (after : σ) (other localIndex : Nat) :
    (chain.withArray array after).arrayContents other localIndex =
      if other = array then Elements.contents after localIndex
      else chain.arrayContents other localIndex := by
  unfold arrayContents
  rw [getElem?_withArray present]
  by_cases same : other = array
  · simp [same]
  · simp [same, withArray]

/-! ## Growth of sub-arrays -/

/-- A chain follows from another by the growth of sub-arrays. -/
structure Regrown (before after : Chain σ) : Prop where
  elementSize_eq : after.elementSize = before.elementSize
  system_eq : after.system = before.system
  arrayLength_eq : after.arrayLength = before.arrayLength
  maxArrays_eq : after.maxArrays = before.maxArrays
  size_eq : after.size = before.size
  arrays_le : before.arrays.size ≤ after.arrays.size
  arraySize_le : ∀ array, before.arraySize array ≤ after.arraySize array
  arrayContents_eq : ∀ array localIndex,
    after.arrayContents array localIndex = before.arrayContents array localIndex
  fits : (∀ {array : Nat} {store : σ}, before.arrays[array]? = some store →
      Fits before.system before.elementSize store) →
    ∀ {array : Nat} {store : σ}, after.arrays[array]? = some store →
      Fits after.system after.elementSize store

namespace Regrown

variable {first second third : Chain σ}

theorem refl (chain : Chain σ) : Regrown chain chain where
  elementSize_eq := rfl
  system_eq := rfl
  arrayLength_eq := rfl
  maxArrays_eq := rfl
  size_eq := rfl
  arrays_le := Nat.le_refl _
  arraySize_le _ := Nat.le_refl _
  arrayContents_eq _ _ := rfl
  fits allFit := allFit

theorem trans (before : Regrown first second) (after : Regrown second third) :
    Regrown first third where
  elementSize_eq := after.elementSize_eq.trans before.elementSize_eq
  system_eq := after.system_eq.trans before.system_eq
  arrayLength_eq := after.arrayLength_eq.trans before.arrayLength_eq
  maxArrays_eq := after.maxArrays_eq.trans before.maxArrays_eq
  size_eq := after.size_eq.trans before.size_eq
  arrays_le := Nat.le_trans before.arrays_le after.arrays_le
  arraySize_le array := Nat.le_trans (before.arraySize_le array) (after.arraySize_le array)
  arrayContents_eq array localIndex :=
    (after.arrayContents_eq array localIndex).trans (before.arrayContents_eq array localIndex)
  fits allFit := after.fits (before.fits allFit)

theorem maxSize_eq (grown : Regrown first second) : second.maxSize = first.maxSize := by
  unfold maxSize
  rw [grown.maxArrays_eq, grown.arrayLength_eq]

theorem target_eq (grown : Regrown first second) (count array : Nat) :
    second.target count array = first.target count array := by
  unfold target
  rw [grown.arrayLength_eq]

theorem arraysFor_eq (grown : Regrown first second) (count : Nat) :
    second.arraysFor count = first.arraysFor count := by
  unfold arraysFor
  rw [grown.arrayLength_eq]

/-- The growth of sub-arrays alone keeps a chain sound. -/
theorem sound (grown : Regrown first second) (sound : first.Sound) : second.Sound where
  elementSize_pos := grown.elementSize_eq ▸ sound.elementSize_pos
  arrayLength_pos := grown.arrayLength_eq ▸ sound.arrayLength_pos
  size_le_maxSize := by
    rw [grown.size_eq, grown.maxSize_eq]
    exact sound.size_le_maxSize
  fits := grown.fits sound.fits
  covered index inside := by
    rw [grown.arrayLength_eq]
    rw [grown.size_eq] at inside
    exact Nat.lt_of_lt_of_le (sound.covered index inside) (grown.arraySize_le _)
  blank array localIndex isLocal past := by
    rw [grown.arrayLength_eq] at isLocal past
    rw [grown.size_eq] at past
    rw [grown.arrayContents_eq, grown.elementSize_eq]
    exact sound.blank array localIndex isLocal past

/-- A sub-array that became a longer one with the same contents. -/
theorem withArray {chain : Chain σ} {array size : Nat} {store after : σ}
    (present : chain.arrays[array]? = some store) (larger : Elements.size store ≤ size)
    (becomes : Store.Becomes LawfulStore.Sound LawfulStore.Affords store after size
      (Elements.contents store)) :
    Regrown chain (chain.withArray array after) where
  elementSize_eq := rfl
  system_eq := rfl
  arrayLength_eq := rfl
  maxArrays_eq := rfl
  size_eq := rfl
  arrays_le := by simp [Chain.withArray]
  arraySize_le other := by
    rw [arraySize_withArray present]
    by_cases same : other = array
    · simpa [same, arraySize, present, becomes.size_eq] using larger
    · simp [same]
  arrayContents_eq other localIndex := by
    rw [arrayContents_withArray present]
    by_cases same : other = array
    · simp [same, arrayContents, present, becomes.contents_eq]
    · simp [same]
  fits allFit {other} {found} there := by
    rw [getElem?_withArray present] at there
    by_cases same : other = array
    · rw [if_pos same] at there
      cases there
      exact (allFit present).of_becomes becomes
    · rw [if_neg same] at there
      exact allFit there

/-- A new sub-array after the last one. -/
theorem push {chain : Chain σ} {store : σ} (fits : Fits chain.system chain.elementSize store)
    (zero : ∀ index, Elements.contents store index = Buffer.zeros chain.elementSize)
    (attempts : Nat) :
    Regrown chain { chain with arrays := chain.arrays.push store, attempts := attempts } where
  elementSize_eq := rfl
  system_eq := rfl
  arrayLength_eq := rfl
  maxArrays_eq := rfl
  size_eq := rfl
  arrays_le := by simp
  arraySize_le array := by
    simp only [arraySize, Array.getElem?_push]
    by_cases last : array = chain.arrays.size
    · simp [last]
    · simp [last]
  arrayContents_eq array localIndex := by
    simp only [arrayContents, Array.getElem?_push]
    by_cases last : array = chain.arrays.size
    · simp [last, zero]
    · simp [last]
  fits allFit {array} {found} there := by
    rw [Array.getElem?_push] at there
    split at there
    case isTrue => cases there; exact fits
    case isFalse => exact allFit there

/-- The account of the requests for sub-arrays says nothing about what they hold. -/
theorem ask (chain : Chain σ) (attempts : Nat) :
    Regrown chain { chain with attempts := attempts } where
  elementSize_eq := rfl
  system_eq := rfl
  arrayLength_eq := rfl
  maxArrays_eq := rfl
  size_eq := rfl
  arrays_le := Nat.le_refl _
  arraySize_le _ := Nat.le_refl _
  arrayContents_eq _ _ := rfl
  fits allFit := allFit

end Regrown

/-- One sub-array grows, or is opened as the next one. -/
theorem growArray_spec {chain : Chain σ} {array : Nat} (count : Nat) (sound : chain.Sound)
    (next : array ≤ chain.arrays.size) :
    match growArray array count chain with
    | .ok _ grown =>
        Regrown chain grown ∧ array + 1 ≤ grown.arrays.size ∧ count ≤ grown.arraySize array
    | .error _ left => Regrown chain left := by
  unfold growArray
  cases present : chain.arrays[array]? with
  | some store =>
      have fits := sound.fits present
      cases resized : Store.resize count store with
      | ok _ grown =>
          have becomes := LawfulStore.resize_ok fits.sound resized
          have regrown := Regrown.withArray present (Nat.le_max_left _ _) becomes
          have inside : array < chain.arrays.size := (Array.getElem?_eq_some_iff.mp present).1
          simp only [resized]
          refine ⟨regrown, Nat.le_trans inside regrown.arrays_le, ?_⟩
          have size := arraySize_withArray present grown array
          rw [if_pos rfl, becomes.size_eq] at size
          exact size ▸ Nat.le_max_right _ _
      | error failure left =>
          have becomes := LawfulStore.resize_error fits.sound resized
          simp only [resized]
          exact Regrown.withArray present (Nat.le_refl _) becomes
  | none =>
      have last : array = chain.arrays.size :=
        Nat.le_antisymm next (Array.getElem?_eq_none_iff.mp present)
      cases opened : SubStore.allocate (σ := σ) chain.system chain.attempts
          chain.elementSize count with
      | ok store =>
          have fresh := LawfulSubStore.allocate_ok opened
          have fits : Fits chain.system chain.elementSize store :=
            ⟨fresh.sound, fresh.elementSize_eq, fun _ => LawfulSubStore.allocate_bound opened⟩
          simp only
          refine ⟨Regrown.push fits fresh.contents_eq _, by simp [last], ?_⟩
          simp [arraySize, last, fresh.size_eq]
      | error failure =>
          simp only
          exact Regrown.ask chain _

/-- The walk over the sub-arrays: those walked over are as long as they have to be. -/
theorem growArrays_spec {chain : Chain σ} {count needed array : Nat} (remaining : Nat)
    (sound : chain.Sound) (fits : count < Address.limit)
    (all : needed = chain.arraysFor count) (reached : array + remaining ≤ needed)
    (next : array ≤ chain.arrays.size)
    (walked : ∀ earlier, earlier < array →
      chain.target count earlier ≤ chain.arraySize earlier) :
    match growArrays count needed array remaining chain with
    | .ok _ grown =>
        Regrown chain grown ∧ ∀ earlier, earlier < array + remaining →
          chain.target count earlier ≤ grown.arraySize earlier
    | .error _ left => Regrown chain left := by
  induction remaining generalizing array chain with
  | zero => exact ⟨Regrown.refl chain, walked⟩
  | succ remaining ih =>
      have step := growArray_spec (chain.target count array) sound next
      rw [growArrays_succ sound.arrayLength_pos fits all (by omega), bind_apply]
      cases grown : growArray array (chain.target count array) chain with
      | error failure left =>
          rw [grown] at step
          exact step
      | ok _ middle =>
          rw [grown] at step
          obtain ⟨regrown, nextInside, longEnough⟩ := step
          have walkedOn : ∀ earlier, earlier < array + 1 →
              middle.target count earlier ≤ middle.arraySize earlier := by
            intro earlier below
            rw [regrown.target_eq]
            by_cases here : earlier = array
            · exact here ▸ longEnough
            · exact Nat.le_trans (walked earlier (by omega)) (regrown.arraySize_le earlier)
          have stillAll : needed = middle.arraysFor count := by
            rw [regrown.arraysFor_eq, all]
          have rest := ih (regrown.sound sound) stillAll (by omega) nextInside walkedOn
          simp only
          cases finished : growArrays count needed (array + 1) remaining middle with
          | error failure left =>
              rw [finished] at rest
              exact regrown.trans rest
          | ok _ final =>
              rw [finished] at rest
              refine ⟨regrown.trans rest.1, ?_⟩
              intro earlier below
              rw [← regrown.target_eq]
              exact rest.2 earlier (by omega)

/-- What the growth of one sub-array keeps, the walk over the sub-arrays keeps, however it
ends. -/
theorem growArrays_keeps (relation : Chain σ → Chain σ → Prop)
    (refl : ∀ chain, relation chain chain)
    (trans : ∀ first second third,
      relation first second → relation second third → relation first third)
    (step : ∀ {chain : Chain σ} {array : Nat} (count : Nat), chain.Sound →
      array ≤ chain.arrays.size → relation chain (stateLeft (growArray array count chain)))
    {chain : Chain σ} {array : Nat} (count needed remaining : Nat) (sound : chain.Sound)
    (next : array ≤ chain.arrays.size) :
    relation chain (stateLeft (growArrays count needed array remaining chain)) := by
  induction remaining generalizing array chain with
  | zero => exact refl chain
  | succ remaining ih =>
      simp only [growArrays, bind_apply, get_apply]
      cases chain.targetInWords count needed array with
      | error fault => exact refl chain
      | ok target =>
          have first := step target sound next
          have spec := growArray_spec target sound next
          simp only [orFault_ok_apply]
          cases grown : growArray array target chain with
          | error failure left =>
              rw [grown] at first
              exact first
          | ok _ middle =>
              rw [grown] at first spec
              obtain ⟨regrown, nextInside, -⟩ := spec
              exact trans _ _ _ first (ih (regrown.sound sound) nextInside)

/-- With memory for full sub-arrays every sub-array can grow to a full one. -/
theorem growArray_affordable {chain : Chain σ} {count : Nat} (array : Nat) (sound : chain.Sound)
    (affordable : chain.Affords 0) (bounded : count ≤ chain.arrayLength) :
    ∃ grown, growArray array count chain = .ok () grown := by
  have supplied := affordable count bounded
  unfold growArray
  cases present : chain.arrays[array]? with
  | some store =>
      have fits := sound.fits present
      obtain ⟨within, storeAffords⟩ := fits.bound count supplied
      obtain ⟨grown, done⟩ := LawfulStore.resize_affordable fits.sound within storeAffords
      exact ⟨chain.withArray array grown, by simp only [done, withArray]⟩
  | none =>
      obtain ⟨store, opened⟩ : ∃ store : σ,
          SubStore.allocate chain.system chain.attempts chain.elementSize count = .ok store :=
        LawfulSubStore.allocate_supplied supplied
      exact ⟨_, by simp only [opened]; rfl⟩

theorem growArrays_affordable {chain : Chain σ} {count needed array : Nat} (remaining : Nat)
    (sound : chain.Sound) (fits : count < Address.limit)
    (all : needed = chain.arraysFor count) (reached : array + remaining ≤ needed)
    (affordable : chain.Affords 0) (next : array ≤ chain.arrays.size) :
    ∃ grown, growArrays count needed array remaining chain = .ok () grown := by
  induction remaining generalizing array chain with
  | zero => exact ⟨chain, rfl⟩
  | succ remaining ih =>
      have bounded : chain.target count array ≤ chain.arrayLength := Nat.min_le_left _ _
      obtain ⟨middle, grown⟩ := growArray_affordable array sound affordable bounded
      have step := growArray_spec (chain.target count array) sound next
      rw [grown] at step
      obtain ⟨regrown, nextInside, -⟩ := step
      have stillAffordable : middle.Affords 0 := by
        unfold Affords
        rw [regrown.arrayLength_eq, regrown.elementSize_eq, regrown.system_eq]
        exact affordable
      have stillAll : needed = middle.arraysFor count := by
        rw [regrown.arraysFor_eq, all]
      rw [growArrays_succ sound.arrayLength_pos fits all (by omega), bind_apply, grown]
      exact ih (regrown.sound sound) stillAll (by omega) stillAffordable nextInside

end RecordPool.Chain
