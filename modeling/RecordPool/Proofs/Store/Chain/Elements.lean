import RecordPool.Proofs.Store.Chain.Growth
import RecordPool.Proofs.Store.Flat

/-!
# Chains keep the contract

Element `i` of a chain is element `i % arrayLength` of sub-array `i / arrayLength`, so that
a change of one sub-array is a change of the elements routed to it.  Growth, writes and
exchanges are followed through that routing.
-/

namespace RecordPool.Chain

variable {σ : Type} [SubStore σ] [LawfulSubStore σ]

section Elements

variable {chain : Chain σ} {index : Nat}

/-- Every element of a chain is in a sub-array. -/
theorem exists_array (sound : chain.Sound) (inside : index < chain.size) :
    ∃ store, chain.arrays[index / chain.arrayLength]? = some store ∧
      index % chain.arrayLength < Elements.size store := by
  have covered := sound.covered index inside
  unfold arraySize at covered
  cases present : chain.arrays[index / chain.arrayLength]? with
  | none =>
      rw [present] at covered
      exact absurd covered (Nat.not_lt_zero _)
  | some store =>
      rw [present] at covered
      exact ⟨store, rfl, covered⟩

theorem element_of_array (sound : chain.Sound) (inside : index < chain.size) :
    chain.element index =
      .ok (chain.arrayContents (index / chain.arrayLength) (index % chain.arrayLength)) := by
  obtain ⟨store, present, localInside⟩ := exists_array sound inside
  simp only [element, elementOf, if_pos inside, locate, present, arrayContents]
  rw [LawfulStore.element_eq (sound.fits present).sound, if_pos localInside]

/-- The contents of a chain are those of its sub-arrays. -/
theorem contents_eq (sound : chain.Sound) (index : Nat) :
    Elements.contents chain index =
      chain.arrayContents (index / chain.arrayLength) (index % chain.arrayLength) := by
  unfold Elements.contents
  simp only [Elements.element, Elements.elementSize]
  by_cases inside : index < chain.size
  · rw [element_of_array sound inside]
  · have past : chain.size ≤
        index / chain.arrayLength * chain.arrayLength + index % chain.arrayLength := by
      rw [Nat.div_add_mod']
      exact Nat.le_of_not_lt inside
    rw [element, if_neg inside]
    exact (sound.blank _ _ (Nat.mod_lt _ sound.arrayLength_pos) past).symm

theorem size_arrayContents (sound : chain.Sound) (array localIndex : Nat) :
    (chain.arrayContents array localIndex).size = chain.elementSize := by
  unfold arrayContents
  cases present : chain.arrays[array]? with
  | none => rfl
  | some store =>
      have fits := sound.fits present
      exact (LawfulStore.size_contents fits.sound localIndex).trans fits.elementSize_eq

/-- A chain whose sub-arrays alone grew has the same elements. -/
theorem Regrown.becomes {after : Chain σ} (grown : Regrown chain after)
    (sound : chain.Sound) :
    Store.Becomes Sound Affords chain after chain.size (Elements.contents chain) where
  sound := grown.sound sound
  elementSize_eq := grown.elementSize_eq
  maxSize_eq := grown.maxSize_eq
  affords_iff count := by
    unfold Affords
    rw [grown.arrayLength_eq, grown.elementSize_eq, grown.system_eq]
  size_eq := grown.size_eq
  contents_eq index := by
    rw [contents_eq (grown.sound sound), contents_eq sound, grown.arrayLength_eq,
      grown.arrayContents_eq]

/-! ## Growth of the chain -/

/-- An element below the new size is in a sub-array that the walk reaches. -/
theorem array_lt_arraysFor {count : Nat} (sound : chain.Sound) (inside : index < count) :
    index / chain.arrayLength < chain.arraysFor count := by
  have fromStart : index / chain.arrayLength * chain.arrayLength ≤ index :=
    Nat.div_mul_le_self index chain.arrayLength
  apply (Nat.le_div_iff_mul_le sound.arrayLength_pos).mpr
  rw [Nat.succ_mul]
  omega

/-- In that sub-array it is below the length that the walk asks for. -/
theorem local_lt_target {count : Nat} (sound : chain.Sound) (inside : index < count) :
    index % chain.arrayLength < chain.target count (index / chain.arrayLength) := by
  have routed := Nat.div_add_mod' index chain.arrayLength
  apply Nat.lt_min.mpr
  exact ⟨Nat.mod_lt _ sound.arrayLength_pos, by omega⟩

/-- Once all sub-arrays are long enough, the chain can be as long as asked for. -/
theorem becomes_enlarged {grown : Chain σ} {count : Nat} (sound : chain.Sound)
    (larger : chain.size ≤ count) (within : count ≤ chain.maxSize)
    (regrown : Regrown chain grown)
    (longEnough : ∀ array, array < chain.arraysFor count →
      chain.target count array ≤ grown.arraySize array) :
    Store.Becomes Sound Affords chain { grown with size := count } count
      (Elements.contents chain) := by
  have middle := regrown.becomes sound
  have sound' : Sound { grown with size := count } := {
    elementSize_pos := middle.sound.elementSize_pos
    arrayLength_pos := middle.sound.arrayLength_pos
    size_le_maxSize := by
      change count ≤ grown.maxSize
      rw [regrown.maxSize_eq]
      exact within
    fits := middle.sound.fits
    covered := fun index inside => by
      change index % grown.arrayLength < grown.arraySize (index / grown.arrayLength)
      rw [regrown.arrayLength_eq]
      exact Nat.lt_of_lt_of_le (local_lt_target sound inside)
        (longEnough _ (array_lt_arraysFor sound inside))
    blank := fun array localIndex isLocal past =>
      middle.sound.blank array localIndex isLocal
        (Nat.le_trans (Nat.le_trans (Nat.le_of_eq middle.size_eq) larger) past) }
  exact {
    sound := sound'
    elementSize_eq := middle.elementSize_eq
    maxSize_eq := middle.maxSize_eq
    affords_iff := middle.affords_iff
    size_eq := rfl
    contents_eq := fun index => by
      rw [contents_eq sound', ← middle.contents_eq, contents_eq middle.sound]
      rfl }

/-- The walk of a chain that is to grow, over all its sub-arrays. -/
theorem growAll_spec {count : Nat} (sound : chain.Sound) (within : count ≤ chain.maxSize) :
    match growArrays count (chain.arraysFor count) 0 (chain.arraysFor count) chain with
    | .ok _ grown =>
        Regrown chain grown ∧ ∀ array, array < chain.arraysFor count →
          chain.target count array ≤ grown.arraySize array
    | .error _ left => Regrown chain left := by
  have walk := growArrays_spec (chain.arraysFor count) sound (lt_limit_of_le_maxSize within)
    rfl (Nat.le_of_eq (Nat.zero_add _)) (Nat.zero_le _)
    (fun earlier below => absurd below (Nat.not_lt_zero earlier))
  cases walked : growArrays count (chain.arraysFor count) 0 (chain.arraysFor count) chain with
  | error failure left =>
      rw [walked] at walk
      exact walk
  | ok _ grown =>
      rw [walked, Nat.zero_add] at walk
      exact walk

theorem resize_ok {grown : Chain σ} {count : Nat} (sound : chain.Sound)
    (done : Chain.resize count chain = .ok () grown) :
    Store.Becomes Sound Affords chain grown (max chain.size count)
      (Elements.contents chain) := by
  by_cases smaller : count ≤ chain.size
  · rw [resize_within smaller] at done
    cases done
    rw [Nat.max_eq_left smaller]
    exact (Regrown.refl chain).becomes sound
  · by_cases beyond : chain.maxSize < count
    · rw [resize_beyond smaller beyond] at done
      cases done
    · have within : count ≤ chain.maxSize := Nat.le_of_not_lt beyond
      have walk := growAll_spec sound within
      rw [resize_larger sound.arrayLength_pos smaller within] at done
      cases walked : growArrays count (chain.arraysFor count) 0 (chain.arraysFor count) chain with
      | error failure left =>
          rw [walked] at done
          cases done
      | ok _ middle =>
          rw [walked] at done walk
          cases done
          rw [Nat.max_eq_right (Nat.le_of_not_le smaller)]
          exact becomes_enlarged sound (Nat.le_of_not_le smaller) within walk.1 walk.2

theorem resize_error {left : Chain σ} {count : Nat} {failure : Failure Store.Error}
    (sound : chain.Sound) (refused : Chain.resize count chain = .error failure left) :
    Store.Becomes Sound Affords chain left chain.size (Elements.contents chain) := by
  by_cases smaller : count ≤ chain.size
  · rw [resize_within smaller] at refused
    cases refused
  · by_cases beyond : chain.maxSize < count
    · rw [resize_beyond smaller beyond] at refused
      cases refused
      exact (Regrown.refl chain).becomes sound
    · have within : count ≤ chain.maxSize := Nat.le_of_not_lt beyond
      have walk := growAll_spec sound within
      rw [resize_larger sound.arrayLength_pos smaller within] at refused
      cases walked : growArrays count (chain.arraysFor count) 0 (chain.arraysFor count) chain with
      | ok _ grown =>
          rw [walked] at refused
          cases refused
      | error other middle =>
          rw [walked] at refused walk
          cases refused
          exact walk.becomes sound

/-- What the growth of one sub-array keeps, and does not depend on the size of the chain, its
growth keeps, however it ends. -/
theorem resize_keeps (relation : Chain σ → Chain σ → Prop)
    (refl : ∀ chain, relation chain chain)
    (trans : ∀ first second third,
      relation first second → relation second third → relation first third)
    (named : ∀ (chain : Chain σ) (size : Nat), relation chain { chain with size := size })
    (step : ∀ {chain : Chain σ} {array : Nat} (count : Nat), chain.Sound →
      array ≤ chain.arrays.size → relation chain (stateLeft (growArray array count chain)))
    (sound : chain.Sound) (count : Nat) :
    relation chain (stateLeft (Chain.resize count chain)) := by
  by_cases smaller : count ≤ chain.size
  · rw [resize_within smaller]
    exact refl chain
  · by_cases beyond : chain.maxSize < count
    · rw [resize_beyond smaller beyond]
      exact refl chain
    · have walk := growArrays_keeps relation refl trans step count (chain.arraysFor count)
        (chain.arraysFor count) sound (Nat.zero_le _)
      rw [resize_larger sound.arrayLength_pos smaller (Nat.le_of_not_lt beyond)]
      cases walked : growArrays count (chain.arraysFor count) 0 (chain.arraysFor count) chain with
      | error failure left =>
          rw [walked] at walk
          exact walk
      | ok _ grown =>
          rw [walked] at walk
          exact trans _ _ _ walk (named grown count)

theorem resize_affordable {count : Nat} (sound : chain.Sound) (within : count ≤ chain.maxSize)
    (affordable : chain.Affords count) :
    ∃ grown, Chain.resize count chain = .ok () grown := by
  by_cases smaller : count ≤ chain.size
  · exact ⟨chain, resize_within smaller⟩
  · obtain ⟨grown, walked⟩ := growArrays_affordable (chain.arraysFor count) sound
      (lt_limit_of_le_maxSize within) rfl (Nat.le_of_eq (Nat.zero_add _)) affordable
      (Nat.zero_le _)
    refine ⟨{ grown with size := count }, ?_⟩
    rw [resize_larger sound.arrayLength_pos smaller within, walked]

/-! ## Writes -/

/-- A change of a sub-array that leaves alone what lies past the end of the chain. -/
theorem becomes_withArray {array : Nat} {store after : σ} {contents : Nat → Buffer}
    (sound : chain.Sound) (present : chain.arrays[array]? = some store)
    (becomes : Store.Becomes LawfulStore.Sound LawfulStore.Affords store after
      (Elements.size store) contents)
    (kept : ∀ localIndex, localIndex < chain.arrayLength →
      chain.size ≤ array * chain.arrayLength + localIndex →
      contents localIndex = Elements.contents store localIndex) :
    Store.Becomes Sound Affords chain (chain.withArray array after) chain.size
      (fun index =>
        if index / chain.arrayLength = array then contents (index % chain.arrayLength)
        else Elements.contents chain index) := by
  have sound' : (chain.withArray array after).Sound := {
    elementSize_pos := sound.elementSize_pos
    arrayLength_pos := sound.arrayLength_pos
    size_le_maxSize := sound.size_le_maxSize
    fits := fun {other} {found} there => by
      rw [getElem?_withArray present] at there
      by_cases same : other = array
      · rw [if_pos same] at there
        cases there
        exact (sound.fits present).of_becomes becomes
      · rw [if_neg same] at there
        exact sound.fits there
    covered := fun index inside => by
      have covered := sound.covered index inside
      change index % chain.arrayLength <
        (chain.withArray array after).arraySize (index / chain.arrayLength)
      rw [arraySize_withArray present]
      by_cases same : index / chain.arrayLength = array
      · rw [if_pos same, becomes.size_eq]
        simpa only [same, arraySize, present] using covered
      · rw [if_neg same]
        exact covered
    blank := fun other localIndex isLocal past => by
      have blank := sound.blank other localIndex isLocal past
      rw [arrayContents_withArray present]
      by_cases same : other = array
      · subst same
        rw [if_pos rfl, becomes.contents_eq, kept localIndex isLocal past]
        simp only [arrayContents, present] at blank
        exact blank
      · rw [if_neg same]
        exact blank }
  exact {
    sound := sound'
    elementSize_eq := rfl
    maxSize_eq := rfl
    affords_iff := fun _ => Iff.rfl
    size_eq := rfl
    contents_eq := fun index => by
      rw [contents_eq sound', contents_eq sound, arrayContents_withArray present,
        becomes.contents_eq]
      rfl }

omit [SubStore σ] [LawfulSubStore σ] in
theorem onArray_present {ε : Type} {missing : ε} {array : Nat} {action : EStateM ε σ Unit}
    {store after : σ} (present : chain.arrays[array]? = some store)
    (done : action store = .ok () after) :
    onArray missing array action chain = .ok () (chain.withArray array after) := by
  simp only [onArray, present, done, withArray]

omit [SubStore σ] [LawfulSubStore σ] in
/-- Elements with one place in one sub-array are the same. -/
theorem eq_of_same_place {other : Nat}
    (array : index / chain.arrayLength = other / chain.arrayLength)
    (place : index % chain.arrayLength = other % chain.arrayLength) : index = other := by
  rw [← Nat.div_add_mod index chain.arrayLength, array, place, Nat.div_add_mod]

theorem contents_of_present {store : σ} (sound : chain.Sound)
    (present : chain.arrays[index / chain.arrayLength]? = some store) :
    Elements.contents chain index = Elements.contents store (index % chain.arrayLength) := by
  rw [contents_eq sound]
  simp only [arrayContents, present]

omit [LawfulSubStore σ] in
theorem overwrite_present {contents : Buffer} {store after : σ} (inside : index < chain.size)
    (present : chain.arrays[index / chain.arrayLength]? = some store)
    (done : Elements.overwrite (index % chain.arrayLength) contents store = .ok () after) :
    Chain.overwrite index contents chain =
      .ok () (chain.withArray (index / chain.arrayLength) after) := by
  simp only [overwrite, bind_apply, get_apply, if_pos inside, locate]
  exact onArray_present present done

/-- A write, with the store that takes the place of the sub-array written to. -/
theorem overwrite_routed {contents : Buffer} (sound : chain.Sound)
    (inside : index < chain.size) (fits : contents.size = chain.elementSize) :
    ∃ after, Chain.overwrite index contents chain =
        .ok () (chain.withArray (index / chain.arrayLength) after) ∧
      Store.Becomes Sound Affords chain (chain.withArray (index / chain.arrayLength) after)
        chain.size (Function.update (Elements.contents chain) index contents) := by
  obtain ⟨store, present, localInside⟩ := exists_array sound inside
  have storeFits := sound.fits present
  obtain ⟨after, done, becomes⟩ := LawfulStore.overwrite_inside storeFits.sound localInside
    (fits.trans storeFits.elementSize_eq.symm)
  refine ⟨after, overwrite_present inside present done, ?_⟩
  · have routed := Nat.div_add_mod' index chain.arrayLength
    have changed := becomes_withArray sound present becomes
      (fun localIndex _ past => Function.update_of_ne (by omega) _ _)
    convert changed using 1
    funext other
    by_cases here : other = index
    · rw [here, if_pos rfl, Function.update_self, Function.update_self]
    · rw [Function.update_of_ne here]
      by_cases sameArray : other / chain.arrayLength = index / chain.arrayLength
      · have otherPlace : other % chain.arrayLength ≠ index % chain.arrayLength :=
          fun samePlace => here (eq_of_same_place sameArray samePlace)
        rw [if_pos sameArray, Function.update_of_ne otherPlace]
        exact contents_of_present sound (sameArray ▸ present)
      · rw [if_neg sameArray]

/-! ## Exchanges -/

omit [LawfulSubStore σ] in
/-- In one sub-array an exchange is left to it. -/
theorem swap_same_array {left right : Nat} (different : left ≠ right)
    (leftInside : left < chain.size) (rightInside : right < chain.size)
    (sameArray : left / chain.arrayLength = right / chain.arrayLength) :
    Chain.swap left right chain =
      onArray (chain.outOfBounds left) (left / chain.arrayLength)
        (Store.swap (left % chain.arrayLength) (right % chain.arrayLength)) chain := by
  simp only [swap, bind_apply, get_apply, if_neg different, if_neg (Nat.not_le.mpr leftInside),
    if_neg (Nat.not_le.mpr rightInside), locate, ← sameArray, if_true]

omit [LawfulSubStore σ] in
theorem exchangeBetween_present {missing : Fault} {low lowLocal high highLocal : Nat}
    {lowStore highStore lowAfter highAfter : σ} {lowContents highContents : Buffer}
    (apart : low ≠ high)
    (lowPresent : chain.arrays[low]? = some lowStore)
    (highPresent : chain.arrays[high]? = some highStore)
    (lowRead : Elements.element lowStore lowLocal = .ok lowContents)
    (highRead : Elements.element highStore highLocal = .ok highContents)
    (lowWritten : Elements.overwrite lowLocal highContents lowStore = .ok () lowAfter)
    (highWritten : Elements.overwrite highLocal lowContents highStore = .ok () highAfter) :
    exchangeBetween missing low lowLocal high highLocal chain =
      .ok () ((chain.withArray low lowAfter).withArray high highAfter) := by
  have between := getElem?_withArray lowPresent lowAfter high
  rw [if_neg apart.symm, highPresent] at between
  simp only [exchangeBetween, bind_apply, get_apply, elementOf, lowPresent, highPresent, lowRead,
    highRead, ofExcept_ok_apply, onArray_present lowPresent lowWritten]
  exact onArray_present between highWritten

/-- Between sub-arrays an exchange is two writes, whichever sub-array comes first. -/
theorem swap_two_arrays {left right : Nat} (sound : chain.Sound)
    (leftInside : left < chain.size) (rightInside : right < chain.size)
    (twoArrays : left / chain.arrayLength ≠ right / chain.arrayLength) :
    Chain.swap left right chain =
      (Chain.overwrite left (Elements.contents chain right) >>= fun _ =>
        Chain.overwrite right (Elements.contents chain left)) chain := by
  have different : left ≠ right := fun same => twoArrays (congrArg (· / chain.arrayLength) same)
  obtain ⟨leftStore, leftPresent, leftLocal⟩ := exists_array sound leftInside
  obtain ⟨rightStore, rightPresent, rightLocal⟩ := exists_array sound rightInside
  have leftFits := sound.fits leftPresent
  have rightFits := sound.fits rightPresent
  have leftRead : Elements.element leftStore (left % chain.arrayLength) =
      .ok (Elements.contents chain left) := by
    rw [LawfulStore.element_eq leftFits.sound, if_pos leftLocal,
      contents_of_present sound leftPresent]
  have rightRead : Elements.element rightStore (right % chain.arrayLength) =
      .ok (Elements.contents chain right) := by
    rw [LawfulStore.element_eq rightFits.sound, if_pos rightLocal,
      contents_of_present sound rightPresent]
  have sameSizes : ∀ index, (Elements.contents chain index).size = chain.elementSize := by
    intro index
    rw [contents_eq sound]
    exact size_arrayContents sound _ _
  obtain ⟨leftAfter, leftWritten, -⟩ := LawfulStore.overwrite_inside leftFits.sound leftLocal
    ((sameSizes right).trans leftFits.elementSize_eq.symm)
  obtain ⟨rightAfter, rightWritten, -⟩ := LawfulStore.overwrite_inside rightFits.sound rightLocal
    ((sameSizes left).trans rightFits.elementSize_eq.symm)
  have between := getElem?_withArray leftPresent leftAfter (right / chain.arrayLength)
  rw [if_neg twoArrays.symm, rightPresent] at between
  have writes : (Chain.overwrite left (Elements.contents chain right) >>= fun _ =>
        Chain.overwrite right (Elements.contents chain left)) chain =
      .ok () ((chain.withArray (left / chain.arrayLength) leftAfter).withArray
        (right / chain.arrayLength) rightAfter) := by
    rw [bind_apply, overwrite_present leftInside leftPresent leftWritten]
    exact overwrite_present rightInside between rightWritten
  rw [writes]
  by_cases ascending : left / chain.arrayLength < right / chain.arrayLength
  · simp only [swap, bind_apply, get_apply, if_neg different, if_neg (Nat.not_le.mpr leftInside),
      if_neg (Nat.not_le.mpr rightInside), locate, twoArrays, if_false, ascending, if_true]
    exact exchangeBetween_present twoArrays leftPresent rightPresent leftRead rightRead
      leftWritten rightWritten
  · simp only [swap, bind_apply, get_apply, if_neg different, if_neg (Nat.not_le.mpr leftInside),
      if_neg (Nat.not_le.mpr rightInside), locate, twoArrays, if_false, ascending]
    rw [withArray_comm chain twoArrays]
    exact exchangeBetween_present twoArrays.symm rightPresent leftPresent rightRead leftRead
      rightWritten leftWritten

/-- An exchange inside a sub-array. -/
theorem swap_inside_array {left right : Nat} (sound : chain.Sound) (different : left ≠ right)
    (leftInside : left < chain.size) (rightInside : right < chain.size)
    (sameArray : left / chain.arrayLength = right / chain.arrayLength) :
    ∃ after, Chain.swap left right chain = .ok () after ∧
      Store.Becomes Sound Affords chain after chain.size
        (Elements.contents chain ∘ Equiv.swap left right) := by
  obtain ⟨store, present, leftLocal⟩ := exists_array sound leftInside
  obtain ⟨store', present', rightLocal⟩ := exists_array sound rightInside
  rw [← sameArray, present] at present'
  obtain rfl := Option.some.inj present'
  have otherPlace : left % chain.arrayLength ≠ right % chain.arrayLength :=
    fun samePlace => different (eq_of_same_place sameArray samePlace)
  obtain ⟨after, done, becomes⟩ := LawfulStore.swap_inside (sound.fits present).sound otherPlace
    leftLocal rightLocal
  have leftRouted := Nat.div_add_mod' left chain.arrayLength
  have rightRouted := Nat.div_add_mod' right chain.arrayLength
  rw [← sameArray] at rightRouted
  refine ⟨chain.withArray (left / chain.arrayLength) after, ?_, ?_⟩
  · rw [swap_same_array different leftInside rightInside sameArray]
    exact onArray_present present done
  · have changed := becomes_withArray sound present becomes (fun localIndex _ past => by
      rw [Function.comp_apply, Equiv.swap_apply_of_ne_of_ne (by omega) (by omega)])
    convert changed using 1
    funext other
    rw [Function.comp_apply, Function.comp_apply]
    by_cases atLeft : other = left
    · rw [atLeft, if_pos rfl, Equiv.swap_apply_left, Equiv.swap_apply_left]
      exact contents_of_present sound (sameArray ▸ present)
    · by_cases atRight : other = right
      · rw [atRight, if_pos sameArray.symm, Equiv.swap_apply_right, Equiv.swap_apply_right]
        exact contents_of_present sound present
      · rw [Equiv.swap_apply_of_ne_of_ne atLeft atRight]
        by_cases routedHere : other / chain.arrayLength = left / chain.arrayLength
        · have offLeft : other % chain.arrayLength ≠ left % chain.arrayLength :=
            fun samePlace => atLeft (eq_of_same_place routedHere samePlace)
          have offRight : other % chain.arrayLength ≠ right % chain.arrayLength :=
            fun samePlace => atRight (eq_of_same_place (routedHere.trans sameArray) samePlace)
          rw [if_pos routedHere, Equiv.swap_apply_of_ne_of_ne offLeft offRight]
          exact contents_of_present sound (routedHere ▸ present)
        · rw [if_neg routedHere]

/-- An exchange between sub-arrays. -/
theorem swap_between_arrays {left right : Nat} (sound : chain.Sound)
    (leftInside : left < chain.size) (rightInside : right < chain.size)
    (twoArrays : left / chain.arrayLength ≠ right / chain.arrayLength) :
    ∃ after, Chain.swap left right chain = .ok () after ∧
      Store.Becomes Sound Affords chain after chain.size
        (Elements.contents chain ∘ Equiv.swap left right) := by
  have leftSize := size_arrayContents sound (left / chain.arrayLength) (left % chain.arrayLength)
  have rightSize :=
    size_arrayContents sound (right / chain.arrayLength) (right % chain.arrayLength)
  rw [← contents_eq sound] at leftSize rightSize
  obtain ⟨first, writeLeft, middle⟩ := overwrite_routed sound leftInside rightSize
  obtain ⟨second, writeRight, final⟩ := overwrite_routed middle.sound rightInside leftSize
  rw [funext middle.contents_eq] at final
  refine ⟨(chain.withArray (left / chain.arrayLength) first).withArray
    (right / chain.arrayLength) second, ?_, ?_⟩
  · rw [swap_two_arrays sound leftInside rightInside twoArrays, bind_apply, writeLeft]
    exact writeRight
  · rw [Equiv.swap_comm, Equiv.comp_swap_eq_update]
    exact middle.trans final

omit [LawfulSubStore σ] in
theorem swap_outside {left right : Nat} (different : left ≠ right)
    (outside : ¬ (left < chain.size ∧ right < chain.size)) :
    ∃ fault, Chain.swap left right chain = .error fault chain := by
  by_cases leftOutside : chain.size ≤ left
  · exact ⟨chain.outOfBounds left, by
      simp only [swap, bind_apply, get_apply, if_neg different, if_pos leftOutside, throw_apply]⟩
  · have rightOutside : chain.size ≤ right := by omega
    exact ⟨chain.outOfBounds right, by
      simp only [swap, bind_apply, get_apply, if_neg different, if_neg leftOutside,
        if_pos rightOutside, throw_apply]⟩

theorem swap_inside {left right : Nat} (sound : chain.Sound) (different : left ≠ right)
    (leftInside : left < chain.size) (rightInside : right < chain.size) :
    ∃ after, Chain.swap left right chain = .ok () after ∧
      Store.Becomes Sound Affords chain after chain.size
        (Elements.contents chain ∘ Equiv.swap left right) := by
  by_cases sameArray : left / chain.arrayLength = right / chain.arrayLength
  · exact swap_inside_array sound different leftInside rightInside sameArray
  · exact swap_between_arrays sound leftInside rightInside sameArray

end Elements

instance : LawfulStore (Chain σ) where
  Sound := Sound
  Affords := Affords
  elementSize_pos := Sound.elementSize_pos
  size_le_maxSize := Sound.size_le_maxSize
  element_eq {chain} sound index := by
    by_cases inside : index < Elements.size chain
    · rw [if_pos inside, contents_eq sound]
      exact element_of_array sound inside
    · rw [if_neg inside]
      exact if_neg inside
  size_contents {chain} sound index := by
    rw [contents_eq sound]
    exact size_arrayContents sound _ _
  resize_within _ within := resize_within within
  resize_beyond {chain count} sound beyond :=
    resize_beyond (Nat.not_le.mpr (Nat.lt_of_le_of_lt sound.size_le_maxSize beyond)) beyond
  resize_affordable sound within affordable := resize_affordable sound within affordable
  resize_ok sound done := resize_ok sound done
  resize_error sound refused := resize_error sound refused
  overwrite_inside sound inside fits := by
    obtain ⟨after, done, becomes⟩ := overwrite_routed sound inside fits
    exact ⟨_, done, becomes⟩
  overwrite_outside {chain index contents} _ outside := by
    change Chain.overwrite index contents chain = _
    have past : ¬ index < chain.size := Nat.not_lt.mpr outside
    simp only [overwrite, bind_apply, get_apply, if_neg past]
    rfl
  swap_self {chain index} := by
    change Chain.swap index index chain = _
    simp only [swap, bind_apply, get_apply, if_true, pure_apply]
  swap_inside sound different leftInside rightInside :=
    swap_inside sound different leftInside rightInside
  swap_outside _ different outside := swap_outside different outside

/-! ## Opening -/

theorem sound_unused {elementSize arrayLength : Nat} (maxArrays : Nat) (system : System)
    (elementSize_pos : 0 < elementSize) (arrayLength_pos : 0 < arrayLength) :
    (unused elementSize arrayLength maxArrays system : Chain σ).Sound where
  elementSize_pos := elementSize_pos
  arrayLength_pos := arrayLength_pos
  size_le_maxSize := Nat.zero_le _
  fits there := by simp [unused] at there
  covered index inside := absurd inside (Nat.not_lt_zero index)
  blank array localIndex _ _ := by simp [unused, arrayContents]

section Opening

variable {elementSize arrayLength count maxArrays : Nat} {system : System} {chain : Chain σ}

omit [LawfulSubStore σ] in
/-- A chain opened grew from an unused one, and a sub-array could be opened that is long
enough. -/
theorem createBounded_eq_ok
    (opened : createBounded elementSize arrayLength count maxArrays system = .ok chain) :
    0 < elementSize ∧ 0 < arrayLength ∧
      (∃ trial : σ, SubStore.allocate system 0 elementSize 0 = .ok trial ∧
        arrayLength ≤ Store.maxSize trial) ∧
      Chain.resize count (unused elementSize arrayLength maxArrays system) = .ok () chain := by
  unfold createBounded at opened
  by_cases noBytes : elementSize = 0
  · rw [if_pos noBytes] at opened
    cases opened
  · by_cases noLength : arrayLength = 0
    · rw [if_neg noBytes, if_pos noLength] at opened
      cases opened
    · by_cases noArrays : maxArrays = 0
      · rw [if_neg noBytes, if_neg noLength, if_pos noArrays] at opened
        cases opened
      · rw [if_neg noBytes, if_neg noLength, if_neg noArrays] at opened
        obtain ⟨trial, tried, opened⟩ := except_bind_eq_ok_iff.mp opened
        by_cases tooLong : Store.maxSize trial < arrayLength
        · rw [if_pos tooLong] at opened
          cases opened
        · rw [if_neg tooLong] at opened
          refine ⟨Nat.pos_of_ne_zero noBytes, Nat.pos_of_ne_zero noLength,
            ⟨trial, tried, Nat.le_of_not_lt tooLong⟩, ?_⟩
          cases grown : resize count
              (unused elementSize arrayLength maxArrays system : Chain σ) with
          | error failure left =>
              rw [grown] at opened
              cases opened
          | ok _ result =>
              rw [grown] at opened
              cases opened
              rfl

/-- A chain opened is new and has the size asked for.  A sub-array could be opened that is
long enough. -/
theorem createBounded_ok
    (opened : createBounded elementSize arrayLength count maxArrays system = .ok chain) :
    Store.Fresh elementSize count chain ∧
      chain.maxSize = min (maxArrays * arrayLength) (Address.limit - 1) ∧
      (∃ trial : σ, SubStore.allocate system 0 elementSize 0 = .ok trial ∧
        arrayLength ≤ Store.maxSize trial) ∧
      ∀ more, LawfulStore.Affords chain more ↔
        ∀ length, length ≤ arrayLength → LawfulSubStore.Supplies σ system elementSize length := by
  obtain ⟨elementSize_pos, arrayLength_pos, trial, grown⟩ := createBounded_eq_ok opened
  have sound := sound_unused (σ := σ) maxArrays system elementSize_pos arrayLength_pos
  have becomes := resize_ok sound grown
  refine ⟨⟨becomes.sound, becomes.elementSize_eq, ?_, ?_⟩, becomes.maxSize_eq, trial,
    becomes.affords_iff⟩
  · exact becomes.size_eq.trans (Nat.zero_max count)
  · intro index
    rw [becomes.contents_eq, contents_eq sound]
    simp [unused, arrayContents]

omit [LawfulSubStore σ] in
/-- Once a sub-array could be opened for trial, a chain is opened by growing an unused one, unless
its sub-arrays are longer than that one can be. -/
theorem createBounded_of_trial {trial : σ}
    (bytes : 0 < elementSize) (length : 0 < arrayLength) (arrays : 0 < maxArrays)
    (tried : SubStore.allocate system 0 elementSize 0 = .ok trial) (count : Nat) :
    (createBounded elementSize arrayLength count maxArrays system : Except _ (Chain σ)) =
      if Store.maxSize trial < arrayLength then
        .error (.refused (.invalidConfig (.arraysTooLong arrayLength (Store.maxSize trial))))
      else
        match Chain.resize count
          (unused elementSize arrayLength maxArrays system : Chain σ) with
        | .ok _ chain => .ok chain
        | .error failure _ => .error failure := by
  rw [createBounded, if_neg (Nat.ne_of_gt bytes), if_neg (Nat.ne_of_gt length),
    if_neg (Nat.ne_of_gt arrays), tried]
  rfl

end Opening

section OfFlat

variable {medium : Medium} {elementSize arrayLength count maxArrays : Nat} {system : System}
  {chain : Chain (Flat medium)}

/-- What a system that serves has room for in one array, it supplies. -/
theorem supplies_of_le (served : system.Serves medium) (bytes : 0 < elementSize)
    {length : Nat} (short : length ≤ Store.defaultMaxBytes / elementSize) :
    LawfulSubStore.Supplies (Flat medium) system elementSize length := by
  have bounded := (Nat.le_div_iff_mul_le bytes).mp short
  exact ⟨bytes, bounded, fun store => served store _ bounded⟩

/-- The sub-arrays of a chain of flat stores are no longer than one that could be opened. -/
theorem arrayLength_le_of_createBounded
    (opened : createBounded elementSize arrayLength count maxArrays system = .ok chain) :
    arrayLength ≤ Store.defaultMaxBytes / elementSize := by
  obtain ⟨-, -, ⟨trial, tried, longEnough⟩, -⟩ := createBounded_eq_ok opened
  have created : Flat.createBounded elementSize 0 Store.defaultMaxBytes (system.mapper 0) =
      .ok trial := tried
  obtain ⟨-, maxSize_eq⟩ := Flat.createBounded_ok created
  exact maxSize_eq ▸ longEnough

/-- There are sub-arrays for a chain of flat stores on a system that serves. -/
theorem supplies_createBounded (served : system.Serves medium)
    (opened : createBounded elementSize arrayLength count maxArrays system = .ok chain) :
    ∀ length, length ≤ arrayLength →
      LawfulSubStore.Supplies (Flat medium) system elementSize length := fun _ within =>
  supplies_of_le served (createBounded_eq_ok opened).1
    (Nat.le_trans within (arrayLength_le_of_createBounded opened))

/-- There is memory for all of a chain of flat stores on a system that serves. -/
theorem ample_createBounded (served : system.Serves medium)
    (opened : createBounded elementSize arrayLength count maxArrays system = .ok chain) :
    Store.Ample chain := by
  obtain ⟨-, -, -, affords_iff⟩ := createBounded_ok opened
  intro more _
  exact (affords_iff more).mpr (supplies_createBounded served opened)

/-- A flat store can be opened for trial on any system, as it has no elements, and tells how
long one can be. -/
theorem exists_trial (medium : Medium) (system : System) (bytes : 0 < elementSize) :
    ∃ trial : Flat medium, SubStore.allocate system 0 elementSize 0 = .ok trial ∧
      Store.maxSize trial = Store.defaultMaxBytes / elementSize := by
  have given : medium.Gives (system.mapper 0) (0 * elementSize) := by
    rw [Nat.zero_mul]
    exact Medium.gives_zero medium _
  have bounded : 0 * elementSize ≤ Store.defaultMaxBytes := by
    rw [Nat.zero_mul]
    exact Nat.zero_le _
  obtain ⟨trial, opened⟩ := Flat.exists_createBounded bytes bounded given
  exact ⟨trial, opened, (Flat.createBounded_ok opened).2⟩

theorem createBounded_tooLong (bytes : 0 < elementSize) (arrays : 0 < maxArrays)
    (tooLong : Store.defaultMaxBytes / elementSize < arrayLength) :
    (createBounded elementSize arrayLength count maxArrays system :
        Except _ (Chain (Flat medium))) =
      .error (.refused (.invalidConfig
        (.arraysTooLong arrayLength (Store.defaultMaxBytes / elementSize)))) := by
  obtain ⟨trial, tried, maxSize_eq⟩ := exists_trial medium system bytes
  have length : 0 < arrayLength := Nat.lt_of_le_of_lt (Nat.zero_le _) tooLong
  rw [createBounded_of_trial bytes length arrays tried, maxSize_eq, if_pos tooLong]

/-- No chain is opened with more elements than it can address. -/
theorem createBounded_beyond (bytes : 0 < elementSize) (length : 0 < arrayLength)
    (arrays : 0 < maxArrays) (short : arrayLength ≤ Store.defaultMaxBytes / elementSize)
    (beyond : min (maxArrays * arrayLength) (Address.limit - 1) < count) :
    (createBounded elementSize arrayLength count maxArrays system :
        Except _ (Chain (Flat medium))) =
      .error (.refused (.capacityExceeded count
        (min (maxArrays * arrayLength) (Address.limit - 1)))) := by
  obtain ⟨trial, tried, maxSize_eq⟩ := exists_trial medium system bytes
  have larger : ¬ count ≤ 0 := Nat.not_le_of_gt (Nat.lt_of_le_of_lt (Nat.zero_le _) beyond)
  have refused : Chain.resize count (unused elementSize arrayLength maxArrays system) =
      .error (.refused (.capacityExceeded count _))
        (unused elementSize arrayLength maxArrays system : Chain (Flat medium)) :=
    resize_beyond larger beyond
  rw [createBounded_of_trial bytes length arrays tried, maxSize_eq,
    if_neg (Nat.not_lt.mpr short), refused]
  rfl

/-- On a system that serves there are chains of every size that they can address. -/
theorem exists_createBounded (served : system.Serves medium) (bytes : 0 < elementSize)
    (length : 0 < arrayLength) (arrays : 0 < maxArrays)
    (short : arrayLength ≤ Store.defaultMaxBytes / elementSize)
    (within : count ≤ min (maxArrays * arrayLength) (Address.limit - 1)) :
    ∃ chain : Chain (Flat medium),
      createBounded elementSize arrayLength count maxArrays system = .ok chain := by
  obtain ⟨trial, tried, maxSize_eq⟩ := exists_trial medium system bytes
  have sound := sound_unused (σ := Flat medium) maxArrays system bytes length
  have affordable : (unused elementSize arrayLength maxArrays system :
      Chain (Flat medium)).Affords count :=
    fun _ partShort => supplies_of_le served bytes (Nat.le_trans partShort short)
  obtain ⟨grown, done⟩ := resize_affordable sound within affordable
  refine ⟨grown, ?_⟩
  rw [createBounded_of_trial bytes length arrays tried, maxSize_eq,
    if_neg (Nat.not_lt.mpr short), done]

end OfFlat

end RecordPool.Chain
