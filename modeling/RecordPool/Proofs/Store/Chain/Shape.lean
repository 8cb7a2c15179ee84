import RecordPool.Proofs.Store.Chain.Elements
import RecordPool.Proofs.Store.Operation
import Mathlib.Data.Set.Function

/-!
# The shape of chains

A chain over flat stores is never refused a sub-array: the trial at its opening showed that one
can be as long as a full sub-array.  It therefore keeps its shape at all times.  It has as many
sub-arrays as its elements take, all of them full but the last one, which has the rest, and every
place in a sub-array is that of exactly one element.
-/

namespace RecordPool.Chain

section Growth

variable {σ : Type} [SubStore σ] [LawfulSubStore σ] {chain grown : Chain σ}
  {array count needed remaining : Nat}

/-- A sub-array that grows has the length asked for, unless it was longer, and the others are as
long as before. -/
theorem growArray_lengths (sound : chain.Sound) (next : array ≤ chain.arrays.size)
    (done : growArray array count chain = .ok () grown) :
    grown.arrays.size = max chain.arrays.size (array + 1) ∧
      ∀ other, grown.arraySize other =
        if other = array then max (chain.arraySize array) count
        else chain.arraySize other := by
  unfold growArray at done
  cases present : chain.arrays[array]? with
  | some store =>
      have inside : array < chain.arrays.size := (Array.getElem?_eq_some_iff.mp present).1
      cases resized : Store.resize count store with
      | error failure left =>
          simp only [present, resized] at done
          cases done
      | ok _ longer =>
          have becomes := LawfulStore.resize_ok (sound.fits present).sound resized
          simp only [present, resized] at done
          cases done
          constructor
          · rw [Array.size_setIfInBounds, Nat.max_eq_left inside]
          · intro other
            have replaced := arraySize_withArray present longer other
            rw [becomes.size_eq] at replaced
            rw [show chain.arraySize array = Elements.size store by
              simp only [arraySize, present]]
            exact replaced
  | none =>
      have last : array = chain.arrays.size :=
        Nat.le_antisymm next (Array.getElem?_eq_none_iff.mp present)
      cases opened : SubStore.allocate (σ := σ) chain.system chain.attempts
          chain.elementSize count with
      | error failure =>
          simp only [present, opened] at done
          cases done
      | ok store =>
          have fresh := LawfulSubStore.allocate_ok opened
          simp only [present, opened] at done
          cases done
          constructor
          · rw [Array.size_push, last, Nat.max_eq_right (Nat.le_succ _)]
          · intro other
            simp only [arraySize, Array.getElem?_push, present]
            by_cases here : other = array
            · rw [if_pos (here.trans last), if_pos here, Nat.zero_max]
              exact fresh.size_eq
            · rw [if_neg (fun atEnd => here (atEnd.trans last.symm)), if_neg here]

/-- The walk makes the sub-arrays that it passes as long as it asks for, and leaves the others as
long as they were. -/
theorem growArrays_lengths (sound : chain.Sound) (fits : count < Address.limit)
    (all : needed = chain.arraysFor count) (reached : array + remaining ≤ needed)
    (next : array ≤ chain.arrays.size)
    (done : growArrays count needed array remaining chain = .ok () grown) :
    grown.arrays.size = max chain.arrays.size (array + remaining) ∧
      ∀ other, grown.arraySize other =
        if array ≤ other ∧ other < array + remaining then
          max (chain.arraySize other) (chain.target count other)
        else chain.arraySize other := by
  -- Another sub-array is the one at hand, ahead in the walk, or not in it any more.
  induction remaining generalizing array chain with
  | zero =>
      cases done
      refine ⟨(Nat.max_eq_left next).symm, fun other => ?_⟩
      rw [if_neg (by omega)]
  | succ remaining ih =>
      rw [growArrays_succ sound.arrayLength_pos fits all (by omega), bind_apply] at done
      cases first : growArray array (chain.target count array) chain with
      | error failure left =>
          rw [first] at done
          cases done
      | ok _ middle =>
          rw [first] at done
          have step := growArray_spec (chain.target count array) sound next
          rw [first] at step
          obtain ⟨regrown, nextInside, -⟩ := step
          have stillAll : needed = middle.arraysFor count := by
            rw [regrown.arraysFor_eq, all]
          obtain ⟨firstArrays, firstLengths⟩ := growArray_lengths sound next first
          obtain ⟨arrays, lengths⟩ :=
            ih (regrown.sound sound) stillAll (by omega) nextInside done
          constructor
          · rw [arrays, firstArrays]
            omega
          · intro other
            rw [lengths, firstLengths, regrown.target_eq]
            by_cases here : other = array
            · rw [if_neg (by omega), if_pos here, if_pos (by omega), here]
            · by_cases later : array + 1 ≤ other ∧ other < array + 1 + remaining
              · rw [if_pos later, if_neg here, if_pos (by omega)]
              · rw [if_neg later, if_neg here, if_neg (by omega)]

end Growth

/-- Two chains of as many sub-arrays of the same lengths. -/
structure SameLengths {σ : Type} [SubStore σ] (before after : Chain σ) : Prop where
  elementSize_eq : after.elementSize = before.elementSize
  system_eq : after.system = before.system
  arrayLength_eq : after.arrayLength = before.arrayLength
  maxArrays_eq : after.maxArrays = before.maxArrays
  size_eq : after.size = before.size
  arrays_size_eq : after.arrays.size = before.arrays.size
  arraySize_eq : ∀ array, after.arraySize array = before.arraySize array

namespace SameLengths

variable {σ : Type} [SubStore σ]

theorem refl (chain : Chain σ) : SameLengths chain chain :=
  ⟨rfl, rfl, rfl, rfl, rfl, rfl, fun _ => rfl⟩

theorem trans (first second third : Chain σ) (before : SameLengths first second)
    (after : SameLengths second third) : SameLengths first third where
  elementSize_eq := after.elementSize_eq.trans before.elementSize_eq
  system_eq := after.system_eq.trans before.system_eq
  arrayLength_eq := after.arrayLength_eq.trans before.arrayLength_eq
  maxArrays_eq := after.maxArrays_eq.trans before.maxArrays_eq
  size_eq := after.size_eq.trans before.size_eq
  arrays_size_eq := after.arrays_size_eq.trans before.arrays_size_eq
  arraySize_eq array := (after.arraySize_eq array).trans (before.arraySize_eq array)

theorem withArray {chain : Chain σ} {array : Nat} {store after : σ}
    (present : chain.arrays[array]? = some store)
    (sameSize : Elements.size after = Elements.size store) :
    SameLengths chain (chain.withArray array after) where
  elementSize_eq := rfl
  system_eq := rfl
  arrayLength_eq := rfl
  maxArrays_eq := rfl
  size_eq := rfl
  arrays_size_eq := Array.size_setIfInBounds
  arraySize_eq other := by
    rw [arraySize_withArray present]
    by_cases here : other = array
    · rw [if_pos here, sameSize, here]
      simp only [arraySize, present]
    · rw [if_neg here]

end SameLengths

/-- A computation on a sub-array that keeps its length keeps the lengths of all of them. -/
theorem onArray_sameLengths {σ ε : Type} [SubStore σ] (missing : ε) (array : Nat)
    {action : EStateM ε σ Unit}
    (keeps : Preserves (fun before after => Elements.size after = Elements.size before) action) :
    Preserves SameLengths (onArray missing array action) := by
  intro chain
  unfold onArray
  cases present : chain.arrays[array]? with
  | none => exact SameLengths.refl chain
  | some store =>
      have sameSize := keeps store
      cases outcome : action store with
      | ok _ left =>
          rw [outcome] at sameSize
          simp only [outcome]
          exact SameLengths.withArray present sameSize
      | error fault left =>
          rw [outcome] at sameSize
          simp only [outcome]
          exact SameLengths.withArray present sameSize

section FlatArrays

variable {medium : Medium}

theorem overwrite_sameLengths (index : Nat) (contents : Buffer) :
    Preserves SameLengths
      (Chain.overwrite index contents : EStateM Fault (Chain (Flat medium)) Unit) := by
  apply Preserves.bind SameLengths.trans (Preserves.get SameLengths.refl)
  intro chain
  split
  · exact onArray_sameLengths _ _ (Flat.overwrite_sameSize _ contents)
  · exact Preserves.throw SameLengths.refl _

theorem exchangeBetween_sameLengths (missing : Fault) (low lowLocal high highLocal : Nat) :
    Preserves SameLengths (Chain.exchangeBetween missing low lowLocal high highLocal :
      EStateM Fault (Chain (Flat medium)) Unit) := by
  apply Preserves.bind SameLengths.trans (Preserves.get SameLengths.refl)
  intro chain
  apply Preserves.bind SameLengths.trans (Preserves.ofExcept SameLengths.refl _)
  intro lowContents
  apply Preserves.bind SameLengths.trans (Preserves.ofExcept SameLengths.refl _)
  intro highContents
  apply Preserves.bind SameLengths.trans
    (onArray_sameLengths _ _ (Flat.overwrite_sameSize _ highContents))
  intro _
  exact onArray_sameLengths _ _ (Flat.overwrite_sameSize _ lowContents)

theorem swap_sameLengths (left right : Nat) :
    Preserves SameLengths
      (Chain.swap left right : EStateM Fault (Chain (Flat medium)) Unit) := by
  apply Preserves.bind SameLengths.trans (Preserves.get SameLengths.refl)
  intro chain
  split
  · exact Preserves.pure SameLengths.refl ()
  · split
    · exact Preserves.throw SameLengths.refl _
    · split
      · exact Preserves.throw SameLengths.refl _
      · cases chain.locate left with
        | mk leftArray leftLocal =>
            cases chain.locate right with
            | mk rightArray rightLocal =>
                dsimp only
                split
                · exact onArray_sameLengths _ _ (Flat.swap_sameSize leftLocal rightLocal)
                · split
                  · exact exchangeBetween_sameLengths _ leftArray leftLocal rightArray rightLocal
                  · exact exchangeBetween_sameLengths _ rightArray rightLocal leftArray leftLocal

end FlatArrays

/-! ## The shape kept -/

/-- A chain with as many sub-arrays as its elements take, full but the last one. -/
structure Shaped {σ : Type} [SubStore σ] [LawfulSubStore σ]
    (system : System) (elementSize arrayLength maxArrays : Nat) (chain : Chain σ) : Prop where
  sound : chain.Sound
  system_eq : chain.system = system
  elementSize_eq : chain.elementSize = elementSize
  arrayLength_eq : chain.arrayLength = arrayLength
  maxArrays_eq : chain.maxArrays = maxArrays
  arrays_size_eq : chain.arrays.size = chain.arraysFor chain.size
  arraySize_eq : ∀ array, chain.arraySize array = chain.target chain.size array

namespace Shaped

section Keeping

variable {σ : Type} [SubStore σ] [LawfulSubStore σ] {chain after : Chain σ} {system : System}
  {elementSize arrayLength maxArrays count : Nat}

theorem unused (system : System) (maxArrays : Nat) (elementSize_pos : 0 < elementSize)
    (arrayLength_pos : 0 < arrayLength) :
    Shaped system elementSize arrayLength maxArrays
      (Chain.unused elementSize arrayLength maxArrays system : Chain σ) where
  sound := sound_unused maxArrays system elementSize_pos arrayLength_pos
  system_eq := rfl
  elementSize_eq := rfl
  arrayLength_eq := rfl
  maxArrays_eq := rfl
  arrays_size_eq := by
    change 0 = (0 + arrayLength - 1) / arrayLength
    rw [Nat.div_eq_of_lt (by omega)]
  arraySize_eq array := by
    change 0 = min arrayLength (0 - array * arrayLength)
    omega

theorem of_sameLengths (shaped : Shaped system elementSize arrayLength maxArrays chain)
    (same : SameLengths chain after) (sound : after.Sound) :
    Shaped system elementSize arrayLength maxArrays after where
  sound := sound
  system_eq := same.system_eq.trans shaped.system_eq
  elementSize_eq := same.elementSize_eq.trans shaped.elementSize_eq
  arrayLength_eq := same.arrayLength_eq.trans shaped.arrayLength_eq
  maxArrays_eq := same.maxArrays_eq.trans shaped.maxArrays_eq
  arrays_size_eq := by
    unfold arraysFor
    rw [same.arrays_size_eq, same.size_eq, same.arrayLength_eq]
    exact shaped.arrays_size_eq
  arraySize_eq array := by
    unfold target
    rw [same.arraySize_eq, same.size_eq, same.arrayLength_eq]
    exact shaped.arraySize_eq array

/-- The last sub-array becomes full, full ones follow, and the last one has the rest. -/
theorem resize_ok (shaped : Shaped system elementSize arrayLength maxArrays chain)
    (done : Chain.resize count chain = .ok () after) :
    Shaped system elementSize arrayLength maxArrays after := by
  have sound := shaped.sound
  by_cases smaller : count ≤ chain.size
  · rw [resize_within smaller] at done
    cases done
    exact shaped
  · by_cases beyond : chain.maxSize < count
    · rw [resize_beyond smaller beyond] at done
      cases done
    · have within : count ≤ chain.maxSize := Nat.le_of_not_lt beyond
      have grew := Chain.resize_ok sound done
      rw [resize_larger sound.arrayLength_pos smaller within] at done
      have walk := growAll_spec sound within
      cases walked : growArrays count (chain.arraysFor count) 0 (chain.arraysFor count) chain with
      | error failure left =>
          rw [walked] at done
          cases done
      | ok _ grown =>
          rw [walked] at done walk
          cases done
          obtain ⟨regrown, -⟩ := walk
          obtain ⟨arrays, lengths⟩ := growArrays_lengths sound
            (lt_limit_of_le_maxSize within) rfl (Nat.le_of_eq (Nat.zero_add _)) (Nat.zero_le _)
            walked
          have larger := Nat.le_of_not_le smaller
          have positive := sound.arrayLength_pos
          have moreArrays : chain.arraysFor chain.size ≤ chain.arraysFor count :=
            arraysFor_mono larger
          refine ⟨grew.sound, regrown.system_eq.trans shaped.system_eq,
            regrown.elementSize_eq.trans shaped.elementSize_eq,
            regrown.arrayLength_eq.trans shaped.arrayLength_eq,
            regrown.maxArrays_eq.trans shaped.maxArrays_eq, ?_, fun array => ?_⟩
          · change grown.arrays.size = grown.arraysFor count
            rw [arrays, shaped.arrays_size_eq, regrown.arraysFor_eq]
            omega
          · change grown.arraySize array = grown.target count array
            rw [lengths, shaped.arraySize_eq, regrown.target_eq]
            -- Past the end of the walk no elements are asked for, and there were none before.
            by_cases reached : 0 ≤ array ∧ array < 0 + chain.arraysFor count
            · rw [if_pos reached, Nat.max_eq_right (target_mono larger array)]
            · rw [if_neg reached, target_of_arraysFor_le positive (by omega),
                target_of_arraysFor_le positive (by omega)]

end Keeping

section Flat

variable {medium : Medium} {chain : Chain (Flat medium)} {system : System}
  {elementSize arrayLength maxArrays count : Nat}

theorem of_createBounded
    (opened : createBounded elementSize arrayLength count maxArrays system = .ok chain) :
    Shaped system elementSize arrayLength maxArrays chain := by
  obtain ⟨elementSize_pos, arrayLength_pos, -, grown⟩ := createBounded_eq_ok opened
  exact (unused system maxArrays elementSize_pos arrayLength_pos).resize_ok grown

/-- A chain that there are sub-arrays for is only refused what it can never have. -/
theorem resize_affordable (shaped : Shaped system elementSize arrayLength maxArrays chain)
    (supplied : ∀ length, length ≤ arrayLength →
      LawfulSubStore.Supplies (Flat medium) system elementSize length)
    (within : count ≤ chain.maxSize) :
    ∃ grown, Chain.resize count chain = .ok () grown := by
  apply Chain.resize_affordable shaped.sound within
  intro length short
  rw [shaped.system_eq, shaped.elementSize_eq]
  exact supplied length (shaped.arrayLength_eq ▸ short)

/-- Through refusals, writes and exchanges as well a chain keeps its shape. -/
theorem invariant (supplied : ∀ length, length ≤ arrayLength →
      LawfulSubStore.Supplies (Flat medium) system elementSize length) :
    Store.Invariant
      (Shaped system elementSize arrayLength maxArrays : Chain (Flat medium) → Prop) where
  sound shaped := shaped.sound
  resize {chain} count shaped := by
    by_cases beyond : chain.maxSize < count
    · have refused : Store.resize count chain = _ :=
        LawfulStore.resize_beyond shaped.sound beyond
      rw [refused]
      exact shaped
    · obtain ⟨grown, done⟩ :=
        shaped.resize_affordable supplied (Nat.le_of_not_lt beyond)
      change Shaped system elementSize arrayLength maxArrays (stateLeft (Chain.resize count chain))
      rw [done]
      exact shaped.resize_ok done
  overwrite {chain after index contents} shaped inside fits written := by
    obtain ⟨other, done, becomes⟩ := LawfulStore.overwrite_inside shaped.sound inside fits
    rw [written] at done
    cases done
    exact shaped.of_sameLengths ((overwrite_sameLengths index contents).of_ok written)
      becomes.sound
  swap {chain} left right shaped := by
    have sound : LawfulStore.Sound chain := shaped.sound
    obtain ⟨_, becomes⟩ := LawfulStore.swap_becomes sound left right
    exact shaped.of_sameLengths (swap_sameLengths left right chain) becomes.sound

end Flat

end Shaped

/-! ## What the shape means -/

/-- What can be relied on about a chain of flat stores at all times. -/
structure InShape {medium : Medium} (elementSize arrayLength maxArrays : Nat)
    (chain : Chain (Flat medium)) : Prop where
  elementSize_eq : chain.elementSize = elementSize
  arrayLength_eq : chain.arrayLength = arrayLength
  maxSize_eq : chain.maxSize = min (maxArrays * arrayLength) (Address.limit - 1)
  size_le_maxSize : chain.size ≤ chain.maxSize
  arrays_size_eq : chain.arrays.size = chain.size ⌈/⌉ arrayLength
  /-- A sub-array is full, or has the rest. -/
  size_array : ∀ {array : Nat} {store : Flat medium}, chain.arrays[array]? = some store →
    store.size = min arrayLength (chain.size - array * arrayLength)
  /-- The elements and the places in the sub-arrays are one to one. -/
  locate_bijOn : Set.BijOn chain.locate (Set.Iio chain.size)
    {place | ∃ store, chain.arrays[place.1]? = some store ∧ place.2 < store.size}
  /-- No memory is mapped in vain. -/
  heldBytes_eq : medium = .mapped → chain.heldBytes = chain.size * elementSize
  /-- The bound of a sub-array leaves room for a full one. -/
  arrayLength_le : ∀ {array : Nat} {store : Flat medium}, chain.arrays[array]? = some store →
    arrayLength ≤ store.maxSize
  resize_ok : ∀ {count : Nat}, count ≤ chain.maxSize →
    ∃ grown, Chain.resize count chain = .ok () grown ∧ grown.size = max chain.size count
  resize_beyond : ∀ {count : Nat}, chain.maxSize < count →
    Chain.resize count chain = .error (.refused (.capacityExceeded count chain.maxSize)) chain
  /-- The walk over the sub-arrays stays within machine words. -/
  arraysInWords_eq : ∀ {count : Nat}, count ≤ chain.maxSize →
    chain.arraysInWords count = .ok (chain.arraysFor count)
  targetInWords_eq : ∀ {count array : Nat}, count ≤ chain.maxSize →
    array < chain.arraysFor count →
    chain.targetInWords count (chain.arraysFor count) array = .ok (chain.target count array)

section Meaning

variable {medium : Medium} {chain : Chain (Flat medium)} {system : System}
  {elementSize arrayLength maxArrays : Nat}

/-- The elements before a sub-array and those in it are those before the next one. -/
theorem min_mul_succ (array length size : Nat) :
    min (array * length) size + min length (size - array * length) =
      min ((array + 1) * length) size := by
  rw [Nat.succ_mul]
  omega

theorem Shaped.size_array (shaped : Shaped system elementSize arrayLength maxArrays chain)
    {array : Nat} {store : Flat medium} (present : chain.arrays[array]? = some store) :
    store.size = min arrayLength (chain.size - array * arrayLength) := by
  have size := shaped.arraySize_eq array
  simp only [arraySize, present, target, shaped.arrayLength_eq] at size
  exact size

theorem Shaped.locate_bijOn (shaped : Shaped system elementSize arrayLength maxArrays chain) :
    Set.BijOn chain.locate (Set.Iio chain.size)
      {place | ∃ store, chain.arrays[place.1]? = some store ∧ place.2 < store.size} := by
  refine ⟨?mapsTo, ?injOn, ?surjOn⟩
  case mapsTo =>
    intro index inside
    exact exists_array shaped.sound inside
  case injOn =>
    intro index _ other _ same
    obtain ⟨array, place⟩ := Prod.mk.inj same
    exact eq_of_same_place array place
  case surjOn =>
    rintro ⟨array, place⟩
      ⟨store, (present : chain.arrays[array]? = some store), (inside : place < store.size)⟩
    have size := shaped.size_array present
    have short : place < chain.arrayLength := by
      rw [shaped.arrayLength_eq]
      omega
    refine ⟨chain.arrayLength * array + place, ?_, ?_⟩
    · rw [Set.mem_Iio, shaped.arrayLength_eq, Nat.mul_comm]
      omega
    · simp only [locate]
      rw [Nat.mul_add_div shaped.sound.arrayLength_pos, Nat.div_eq_of_lt short, Nat.mul_add_mod,
        Nat.mod_eq_of_lt short, Nat.add_zero]

theorem Shaped.heldBytes_eq (shaped : Shaped system elementSize arrayLength maxArrays chain) :
    chain.heldBytes = chain.size * elementSize := by
  have held : chain.heldBytes =
      min (chain.arrays.size * arrayLength) chain.size * elementSize := by
    -- The sub-arrays before one hold the bytes of the elements before it.
    apply Array.foldl_induction
      (fun array total => total = min (array * arrayLength) chain.size * elementSize)
    · rw [Nat.zero_mul, Nat.zero_min, Nat.zero_mul]
    · intro array total before
      have present : chain.arrays[array.val]? = some chain.arrays[array] :=
        Array.getElem?_eq_getElem array.isLt
      have fits := shaped.sound.fits present
      have arraySound : chain.arrays[array].Sound := fits.sound
      have bytes : Store.heldBytes chain.arrays[array] =
          chain.arrays[array].size * chain.arrays[array].elementSize := arraySound.size_block
      have elementBytes : chain.arrays[array].elementSize = elementSize :=
        fits.elementSize_eq.trans shaped.elementSize_eq
      rw [before, bytes, elementBytes, shaped.size_array present, ← Nat.add_mul, min_mul_succ]
  have all : chain.size ≤ chain.arrays.size * arrayLength := by
    rw [shaped.arrays_size_eq, ← shaped.arrayLength_eq]
    exact le_arraysFor_mul shaped.sound.arrayLength_pos
  rw [held, Nat.min_eq_right all]

theorem Shaped.maxSize_eq (shaped : Shaped system elementSize arrayLength maxArrays chain) :
    chain.maxSize = min (maxArrays * arrayLength) (Address.limit - 1) := by
  unfold maxSize
  rw [shaped.maxArrays_eq, shaped.arrayLength_eq]

theorem Shaped.inShape (shaped : Shaped system elementSize arrayLength maxArrays chain)
    (supplied : ∀ length, length ≤ arrayLength →
      LawfulSubStore.Supplies (Flat medium) system elementSize length) :
    InShape elementSize arrayLength maxArrays chain := by
  have sound := shaped.sound
  exact {
    elementSize_eq := shaped.elementSize_eq
    arrayLength_eq := shaped.arrayLength_eq
    maxSize_eq := shaped.maxSize_eq
    size_le_maxSize := sound.size_le_maxSize
    arrays_size_eq := by
      rw [shaped.arrays_size_eq, arraysFor_eq_ceilDiv, shaped.arrayLength_eq]
    size_array := shaped.size_array
    locate_bijOn := shaped.locate_bijOn
    heldBytes_eq := fun _ => shaped.heldBytes_eq
    arrayLength_le := fun present => by
      have fits := sound.fits present
      rw [shaped.system_eq, shaped.elementSize_eq] at fits
      exact (fits.bound arrayLength (supplied arrayLength (Nat.le_refl _))).1
    resize_ok := fun within => by
      obtain ⟨grown, done⟩ := shaped.resize_affordable supplied within
      exact ⟨grown, done, (Chain.resize_ok sound done).size_eq⟩
    resize_beyond := fun beyond =>
      Chain.resize_beyond (Nat.not_le.mpr (Nat.lt_of_le_of_lt sound.size_le_maxSize beyond)) beyond
    arraysInWords_eq := fun within =>
      Chain.arraysInWords_eq sound.arrayLength_pos (lt_limit_of_le_maxSize within)
    targetInWords_eq := fun within reached =>
      Chain.targetInWords_eq sound.arrayLength_pos (lt_limit_of_le_maxSize within) reached }

end Meaning

/-- A chain of flat stores on a system that serves is in shape at all times, whatever was asked
of it. -/
theorem all_keep_shape {medium : Medium} {system : System}
    {elementSize arrayLength count maxArrays : Nat} {chain : Chain (Flat medium)}
    (served : system.Serves medium)
    (opened : createBounded elementSize arrayLength count maxArrays system = .ok chain)
    (requests : List Store.Request) :
    InShape elementSize arrayLength maxArrays (Store.after chain requests) := by
  have supplied := supplies_createBounded served opened
  have kept := (Shaped.invariant supplied).after (Shaped.of_createBounded opened) requests
  exact kept.inShape supplied

/-- The first sub-array becomes full and two follow; the second request to grow is refused. -/
theorem mapped_chain_keeps_shape :
    System.usual.Serves .mapped ∧
    ∃ chain : Chain Mapped, createBounded 2 8 3 16 .usual = .ok chain ∧
      let requests : List Store.Request :=
        [.operation (.resize 20), .swap 1 17, .operation (.resize 129)]
      (Store.after chain requests).arrays.toList.map Flat.size = [8, 8, 4] ∧
      InShape 2 8 16 (Store.after chain requests) := by
  have opened : ∃ chain : Chain Mapped, createBounded 2 8 3 16 .usual = .ok chain ∧
      (Store.after chain [.operation (.resize 20), .swap 1 17,
        .operation (.resize 129)]).arrays.toList.map Flat.size = [8, 8, 4] :=
    ⟨_, rfl, by decide +kernel⟩
  obtain ⟨chain, opened, lengths⟩ := opened
  have served := System.usual_serves .mapped
  exact ⟨served, chain, opened, lengths, all_keep_shape served opened _⟩

end RecordPool.Chain
