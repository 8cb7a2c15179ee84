import RecordPool.Proofs.Buffer
import RecordPool.Proofs.Store.Contract
import RecordPool.Store.Flat

/-!
# Flat stores keep the contract

The elements of a flat store fill its block, each in a place of its own
(`Flat.Sound`, `Flat.cell`).  From this follows that every position is one of a machine
word and every range inside the block.  Growing lengthens the block by zeros, whichever
medium it is taken from, and a write or an exchange changes the places that it names.
-/

namespace RecordPool

/-- Whether a medium gives a block of a number of bytes, however often it is asked.  For
no bytes it is not asked at all. -/
def Medium.Gives (medium : Medium) (mapper : Mapper) (bytes : Nat) : Prop :=
  match medium with
  | .heap => bytes < Address.blockLimit
  | .mapped => 0 < bytes → ∀ request, mapper.maps request bytes = true

theorem Medium.gives_heap {mapper : Mapper} {bytes : Nat} (few : bytes < Address.blockLimit) :
    Medium.heap.Gives mapper bytes :=
  few

theorem Medium.gives_zero (medium : Medium) (mapper : Mapper) : medium.Gives mapper 0 := by
  cases medium with
  | heap => exact gives_heap (by decide)
  | mapped => exact fun none => absurd none (Nat.lt_irrefl 0)

/-- What a medium gives is a block. -/
theorem Medium.lt_of_gives {medium : Medium} {mapper : Mapper} {bytes : Nat}
    (given : medium.Gives mapper bytes) : bytes < Address.blockLimit := by
  cases medium with
  | heap => exact given
  | mapped =>
      cases bytes with
      | zero => decide
      | succ rest => exact mapper.lt_of_maps (given rest.succ_pos 0)

namespace Flat

variable {medium : Medium}

/-- The states that a flat store can be in. -/
structure Sound (store : Flat medium) : Prop where
  elementSize_pos : 0 < store.elementSize
  size_le_maxSize : store.size ≤ store.maxSize
  /-- The elements fill the block. -/
  size_block : store.block.size = store.size * store.elementSize
  block_lt : store.block.size < Address.blockLimit

/-- The medium gives a block for a number of elements. -/
def Affords (store : Flat medium) (count : Nat) : Prop :=
  medium.Gives store.mapper (count * store.elementSize)

/-- What the block has at the place of an element. -/
def cell (store : Flat medium) (index : Nat) : Buffer :=
  store.block.slice (index * store.elementSize) store.elementSize

section Elements

variable {store : Flat medium} {index other : Nat}

/-- The place of an element lies inside the block. -/
theorem place_le (sound : store.Sound) (inside : index < store.size) :
    index * store.elementSize + store.elementSize ≤ store.block.size := by
  rw [sound.size_block, ← Nat.succ_mul]
  exact Nat.mul_le_mul_right _ inside

/-- The places of different elements lie apart. -/
theorem places_apart (elementSize : Nat) (different : index ≠ other) :
    index * elementSize + elementSize ≤ other * elementSize ∨
      other * elementSize + elementSize ≤ index * elementSize := by
  rw [← Nat.succ_mul, ← Nat.succ_mul]
  rcases Nat.lt_or_gt_of_ne different with before | after
  · exact .inl (Nat.mul_le_mul_right _ before)
  · exact .inr (Nat.mul_le_mul_right _ after)

/-- No position of an element that is there overflows. -/
theorem byteRange_inside (sound : store.Sound) (inside : index < store.size) :
    store.byteRange index = .ok ⟨index * store.elementSize, store.elementSize⟩ := by
  have place := place_le sound inside
  have block : store.block.size < Address.limit :=
    Nat.lt_trans sound.block_lt (by decide)
  have start : index * store.elementSize < Address.limit := by omega
  have stop : index * store.elementSize + store.elementSize < Address.limit := by omega
  rw [byteRange, if_pos inside, Address.check_of_lt start, except_ok_bind, Span.check,
    Address.check_of_lt stop]
  rfl

theorem byteRange_outside (outside : store.size ≤ index) :
    store.byteRange index = .error (store.outOfBounds index) :=
  if_neg (Nat.not_lt.mpr outside)

/-- The place of an element that is there, as a range of the block. -/
theorem part_place (sound : store.Sound) (inside : index < store.size) :
    store.block.whole.part ⟨index * store.elementSize, store.elementSize⟩ =
      .ok ⟨index * store.elementSize, store.elementSize⟩ :=
  Buffer.part_whole (place_le sound inside)

theorem element_inside (sound : store.Sound) (inside : index < store.size) :
    Flat.element store index = .ok (store.cell index) := by
  rw [Flat.element, byteRange_inside sound inside, except_ok_bind, part_place sound inside]
  rfl

theorem element_outside (outside : store.size ≤ index) :
    Flat.element store index = .error (store.outOfBounds index) := by
  rw [Flat.element, byteRange_outside outside]
  rfl

/-- The contents of an element are those of its place.  Past the end there is nothing. -/
theorem contents_eq (sound : store.Sound) (index : Nat) :
    Elements.contents store index = store.cell index := by
  by_cases inside : index < store.size
  · have there : Elements.element store index = .ok (store.cell index) :=
      element_inside sound inside
    rw [Elements.contents, there]
  · have outside : store.size ≤ index := Nat.le_of_not_lt inside
    have past : store.block.size ≤ index * store.elementSize := by
      rw [sound.size_block]
      exact Nat.mul_le_mul_right _ outside
    have missing : Elements.element store index =
        .error (.elementOutOfBounds index store.size) := element_outside outside
    rw [Elements.contents, missing]
    exact (Buffer.slice_past_end past _).symm

/-- A store becomes another one of its element size, bounds and medium. -/
theorem becomes_of_sound {after : Flat medium} (sound : after.Sound)
    (elementSize_eq : after.elementSize = store.elementSize)
    (maxBytes_eq : after.maxBytes = store.maxBytes) (mapper_eq : after.mapper = store.mapper) :
    Store.Becomes Sound Affords store after after.size after.cell where
  sound := sound
  elementSize_eq := elementSize_eq
  maxSize_eq := by
    change after.maxSize = store.maxSize
    rw [maxSize, maxSize, elementSize_eq, maxBytes_eq]
  affords_iff count := by rw [Affords, Affords, elementSize_eq, mapper_eq]
  size_eq := rfl
  contents_eq := contents_eq sound

end Elements

/-! ## Growth -/

section Growth

variable {store : Flat medium} {bytes count : Nat}

/-- The store with more elements, for which its block was lengthened by zeros. -/
def lengthened (store : Flat medium) (count requests : Nat) : Flat medium :=
  { store with
    block := store.block.resize (count * store.elementSize)
    size := count
    requests := requests }

/-- The store after some requests that changed nothing else. -/
def withRequests (store : Flat medium) (requests : Nat) : Flat medium :=
  { store with requests := requests }

theorem extend_eq :
    extend bytes store =
      if bytes < Address.blockLimit then
        .ok () { store with block := store.block.resize bytes }
      else
        .error (.fault .blockTooLarge) store := by
  unfold extend Address.checkBlock
  split <;> rfl

/-- A region to which the block was copied is the block lengthened by zeros. -/
theorem remap_eq (longer : store.block.size ≤ bytes) :
    remap bytes store =
      if store.mapper.maps store.requests bytes then
        .ok () { store with block := store.block.resize bytes, requests := store.requests + 1 }
      else
        .error (.refused .mapFailed) { store with requests := store.requests + 1 } := by
  have beginning : (Buffer.zeros bytes).whole.part store.block.whole = .ok store.block.whole :=
    Buffer.part_whole (by
      change 0 + store.block.size ≤ bytes
      rwa [Nat.zero_add])
  have copied : (Buffer.zeros bytes).copyInto store.block.whole store.block =
      .ok (store.block.resize bytes) :=
    (if_pos rfl).trans (congrArg Except.ok (Buffer.splice_zeros longer))
  by_cases mapped : store.mapper.maps store.requests bytes
  · simp only [remap, bind_apply, get_apply, modify_apply, mapped, if_true, beginning,
      orFault_ok_apply, copied]
  · simp only [remap, bind_apply, get_apply, modify_apply, mapped, if_false, Bool.false_eq_true,
      throw_apply]

/-- However it ends, growth lengthens the block by zeros or leaves it. -/
theorem grow_ok {grown : Flat medium} (longer : store.block.size ≤ bytes)
    (done : grow bytes store = .ok () grown) :
    bytes < Address.blockLimit ∧
      ∃ requests, grown = { store with block := store.block.resize bytes, requests := requests } := by
  cases medium with
  | heap =>
      rw [grow, extend_eq] at done
      split at done
      case isTrue fits =>
          cases done
          exact ⟨fits, store.requests, rfl⟩
      case isFalse => cases done
  | mapped =>
      rw [grow, remap_eq longer] at done
      split at done
      case isTrue mapped =>
          cases done
          exact ⟨store.mapper.lt_of_maps mapped, store.requests + 1, rfl⟩
      case isFalse => cases done

theorem grow_error {left : Flat medium} {failure : Failure Store.Error}
    (longer : store.block.size ≤ bytes) (refused : grow bytes store = .error failure left) :
    ∃ requests, left = store.withRequests requests := by
  cases medium with
  | heap =>
      rw [grow, extend_eq] at refused
      split at refused
      case isTrue => cases refused
      case isFalse =>
          cases refused
          exact ⟨store.requests, rfl⟩
  | mapped =>
      rw [grow, remap_eq longer] at refused
      split at refused
      case isTrue => cases refused
      case isFalse =>
          cases refused
          exact ⟨store.requests + 1, rfl⟩

theorem grow_given (longer : store.block.size ≤ bytes) (some : 0 < bytes)
    (given : medium.Gives store.mapper bytes) : ∃ grown, grow bytes store = .ok () grown := by
  cases medium with
  | heap =>
      have fits : bytes < Address.blockLimit := given
      rw [grow, extend_eq, if_pos fits]
      exact ⟨_, rfl⟩
  | mapped =>
      rw [grow, remap_eq longer, if_pos (given some _)]
      exact ⟨_, rfl⟩

/-- The bytes for more elements are more than the block has. -/
theorem size_block_le (sound : store.Sound) (larger : store.size ≤ count) :
    store.block.size ≤ count * store.elementSize := by
  rw [sound.size_block]
  exact Nat.mul_le_mul_right _ larger

/-- Growth that is neither needless nor past the maximum is that of the block. -/
theorem resize_larger (larger : store.size < count) (within : count ≤ store.maxSize) :
    Flat.resize count store =
      (orFault (store.bytesFor count) >>= fun bytes => do
        grow bytes
        modify fun grown => { grown with size := count }) store := by
  simp only [Flat.resize, bind_apply, get_apply, if_neg (Nat.not_le.mpr larger),
    if_neg (Nat.not_lt.mpr within)]

/-- What growing a store does to it: nothing, or its block is lengthened by zeros. -/
theorem resize_ok_cases (sound : store.Sound) {grown : Flat medium}
    (done : Flat.resize count store = .ok () grown) :
    count ≤ store.size ∧ grown = store ∨
      store.size < count ∧ count ≤ store.maxSize ∧
        count * store.elementSize < Address.blockLimit ∧
        ∃ requests, grown = store.lengthened count requests := by
  by_cases small : count ≤ store.size
  · simp only [Flat.resize, bind_apply, get_apply, if_pos small, pure_apply] at done
    cases done
    exact .inl ⟨small, rfl⟩
  · have larger : store.size < count := Nat.lt_of_not_le small
    by_cases beyond : store.maxSize < count
    · simp only [Flat.resize, bind_apply, get_apply, if_neg small, if_pos beyond,
        throw_apply] at done
      cases done
    · have within : count ≤ store.maxSize := Nat.le_of_not_lt beyond
      rw [resize_larger larger within] at done
      cases counted : store.bytesFor count with
      | error fault =>
          simp only [bind_apply, counted, orFault_error_apply] at done
          cases done
      | ok total =>
          obtain ⟨-, rfl⟩ := Address.check_eq_ok_iff.mp counted
          rw [counted, bind_apply, orFault_ok_apply] at done
          obtain ⟨_, extended, grew, named⟩ := bind_eq_ok_iff.mp done
          obtain ⟨fits, requests, rfl⟩ := grow_ok (size_block_le sound (Nat.le_of_lt larger)) grew
          cases named
          exact .inr ⟨larger, within, fits, requests, rfl⟩

/-- A store that does not grow has at most asked for a region. -/
theorem resize_error_cases (sound : store.Sound) {left : Flat medium}
    {failure : Failure Store.Error} (refused : Flat.resize count store = .error failure left) :
    ∃ requests, left = store.withRequests requests := by
  by_cases small : count ≤ store.size
  · simp only [Flat.resize, bind_apply, get_apply, if_pos small, pure_apply] at refused
    cases refused
  · have larger : store.size < count := Nat.lt_of_not_le small
    by_cases beyond : store.maxSize < count
    · simp only [Flat.resize, bind_apply, get_apply, if_neg small, if_pos beyond,
        throw_apply] at refused
      cases refused
      exact ⟨store.requests, rfl⟩
    · rw [resize_larger larger (Nat.le_of_not_lt beyond)] at refused
      cases counted : store.bytesFor count with
      | error fault =>
          simp only [bind_apply, counted, orFault_error_apply] at refused
          cases refused
          exact ⟨store.requests, rfl⟩
      | ok total =>
          obtain ⟨-, rfl⟩ := Address.check_eq_ok_iff.mp counted
          simp only [bind_apply, counted, orFault_ok_apply] at refused
          cases grew : grow (count * store.elementSize) store with
          | ok _ grown =>
              rw [grew] at refused
              cases refused
          | error cause grown =>
              rw [grew] at refused
              cases refused
              exact grow_error (size_block_le sound (Nat.le_of_lt larger)) grew

theorem resize_affordable (sound : store.Sound) (within : count ≤ store.maxSize)
    (affordable : store.Affords count) : ∃ grown, Flat.resize count store = .ok () grown := by
  by_cases small : count ≤ store.size
  · exact ⟨store, by simp only [Flat.resize, bind_apply, get_apply, if_pos small, pure_apply]⟩
  · have larger : store.size < count := Nat.lt_of_not_le small
    have some : 0 < count * store.elementSize :=
      Nat.mul_pos (Nat.zero_lt_of_lt larger) sound.elementSize_pos
    have counted : store.bytesFor count = .ok (count * store.elementSize) :=
      Address.check_of_lt (Nat.lt_trans (Medium.lt_of_gives affordable) (by decide))
    obtain ⟨grown, grew⟩ := grow_given (size_block_le sound (Nat.le_of_lt larger)) some affordable
    refine ⟨{ grown with size := count }, ?_⟩
    rw [resize_larger larger within]
    simp only [bind_apply, counted, orFault_ok_apply, grew, modify_apply]

/-- The states after growth that was not needless. -/
theorem sound_lengthened (sound : store.Sound) (within : count ≤ store.maxSize)
    (fits : count * store.elementSize < Address.blockLimit) (requests : Nat) :
    (store.lengthened count requests).Sound where
  elementSize_pos := sound.elementSize_pos
  size_le_maxSize := within
  size_block := Buffer.size_resize _ _
  block_lt := by
    change (store.block.resize _).size < _
    rwa [Buffer.size_resize]

theorem sound_withRequests (sound : store.Sound) (requests : Nat) :
    (store.withRequests requests).Sound where
  elementSize_pos := sound.elementSize_pos
  size_le_maxSize := sound.size_le_maxSize
  size_block := sound.size_block
  block_lt := sound.block_lt

theorem resize_ok (sound : store.Sound) {grown : Flat medium}
    (done : Flat.resize count store = .ok () grown) :
    Store.Becomes Sound Affords store grown (max store.size count)
      (Elements.contents store) := by
  rw [funext (contents_eq sound)]
  rcases resize_ok_cases sound done with ⟨small, rfl⟩ | ⟨larger, within, fits, requests, rfl⟩
  · rw [Nat.max_eq_left small]
    exact becomes_of_sound sound rfl rfl rfl
  · have kept := Buffer.get_resize_of_le (size_block_le sound (Nat.le_of_lt larger))
    have becomes : Store.Becomes Sound Affords store (store.lengthened count requests) count
        (store.lengthened count requests).cell :=
      becomes_of_sound (sound_lengthened sound within fits requests) rfl rfl rfl
    rw [Nat.max_eq_right (Nat.le_of_lt larger)]
    exact { becomes with
      contents_eq := fun index =>
        (becomes.contents_eq index).trans (Buffer.slice_congr kept _ _) }

theorem resize_error (sound : store.Sound) {left : Flat medium} {failure : Failure Store.Error}
    (refused : Flat.resize count store = .error failure left) :
    Store.Becomes Sound Affords store left store.size (Elements.contents store) := by
  rw [funext (contents_eq sound)]
  obtain ⟨requests, rfl⟩ := resize_error_cases sound refused
  exact becomes_of_sound (sound_withRequests sound requests) rfl rfl rfl

end Growth

/-! ## Writes and exchanges -/

section Writing

variable {store : Flat medium} {index left right : Nat} {contents : Buffer}

/-- The store with the block written over at the place of an element. -/
def withCell (store : Flat medium) (index : Nat) (contents : Buffer) : Flat medium :=
  { store with block := store.block.splice (index * store.elementSize) contents }

theorem sound_withCell (sound : store.Sound) (index : Nat) (contents : Buffer) :
    (store.withCell index contents).Sound where
  elementSize_pos := sound.elementSize_pos
  size_le_maxSize := sound.size_le_maxSize
  size_block := sound.size_block
  block_lt := sound.block_lt

/-- A write over the place of an element changes what is there, and at no other place. -/
theorem cell_withCell (sound : store.Sound) (inside : index < store.size)
    (fits : contents.size = store.elementSize) :
    (store.withCell index contents).cell = Function.update store.cell index contents := by
  have place := place_le sound inside
  rw [← fits] at place
  funext other
  by_cases same : other = index
  · rw [same, Function.update_self, cell, withCell]
    simp only [← fits]
    exact Buffer.slice_splice (by rwa [fits] at place ⊢)
  · rw [Function.update_of_ne same]
    apply Buffer.slice_splice_of_apart
    · rwa [fits] at place ⊢
    · rw [fits]
      exact places_apart _ same

theorem overwrite_inside_eq (sound : store.Sound) (inside : index < store.size)
    (fits : contents.size = store.elementSize) :
    Flat.overwrite index contents store = .ok () (store.withCell index contents) := by
  have copied : store.block.copyInto ⟨index * store.elementSize, store.elementSize⟩ contents =
      .ok (store.block.splice (index * store.elementSize) contents) := if_pos fits
  simp only [Flat.overwrite, bind_apply, get_apply, byteRange_inside sound inside,
    ofExcept_ok_apply, part_place sound inside, copied, modify_apply, withCell]

theorem overwrite_outside (outside : store.size ≤ index) :
    Flat.overwrite index contents store = .error (store.outOfBounds index) store := by
  simp only [Flat.overwrite, bind_apply, get_apply, byteRange_outside outside,
    ofExcept_error_apply]

theorem overwrite_inside (sound : store.Sound) (inside : index < store.size)
    (fits : contents.size = store.elementSize) :
    ∃ after, Flat.overwrite index contents store = .ok () after ∧
      Store.Becomes Sound Affords store after store.size
        (Function.update (Elements.contents store) index contents) := by
  refine ⟨_, overwrite_inside_eq sound inside fits, ?_⟩
  rw [funext (contents_eq sound), ← cell_withCell sound inside fits]
  exact becomes_of_sound (sound_withCell sound index contents) rfl rfl rfl

/-- The store with what the block has at two places exchanged. -/
def swapped (store : Flat medium) (left right : Nat) : Flat medium :=
  (store.withCell left (store.cell right)).withCell right (store.cell left)

theorem swapped_comm (sound : store.Sound) (different : left ≠ right)
    (leftInside : left < store.size) (rightInside : right < store.size) :
    store.swapped left right = store.swapped right left := by
  have leftFits : left * store.elementSize + (store.cell right).size ≤ store.block.size :=
    place_le sound leftInside
  have rightFits : right * store.elementSize + (store.cell left).size ≤ store.block.size :=
    place_le sound rightInside
  have blocks := Buffer.splice_comm leftFits rightFits (places_apart _ different)
  exact congrArg (fun block : Buffer => ({ store with block := block } : Flat medium)) blocks

theorem cell_swapped (sound : store.Sound) (leftInside : left < store.size)
    (rightInside : right < store.size) :
    (store.swapped left right).cell = store.cell ∘ Equiv.swap left right := by
  have first : (store.withCell left (store.cell right)).Sound := sound_withCell sound _ _
  rw [swapped, cell_withCell first rightInside rfl, cell_withCell sound leftInside rfl,
    Equiv.swap_comm, Equiv.comp_swap_eq_update]

theorem becomes_swapped (sound : store.Sound) (leftInside : left < store.size)
    (rightInside : right < store.size) :
    Store.Becomes Sound Affords store (store.swapped left right) store.size
      (Elements.contents store ∘ Equiv.swap left right) := by
  rw [funext (contents_eq sound), ← cell_swapped sound leftInside rightInside]
  exact becomes_of_sound (sound_withCell (sound_withCell sound _ _) _ _) rfl rfl rfl

/-- The higher element is the first of the part of the block that begins with it, and the
lower one lies before that part. -/
theorem exchanged_inside (sound : store.Sound) (ordered : left < right)
    (rightInside : right < store.size) :
    store.exchanged left right = .ok (store.swapped left right).block := by
  have leftInside : left < store.size := Nat.lt_trans ordered rightInside
  have rightPlace := place_le sound rightInside
  have leftPlace : left * store.elementSize + store.elementSize ≤ right * store.elementSize := by
    rw [← Nat.succ_mul]
    exact Nat.mul_le_mul_right _ ordered
  have split : store.block.whole.splitAt (right * store.elementSize) =
      .ok (⟨0, right * store.elementSize⟩,
        ⟨0 + right * store.elementSize, store.block.size - right * store.elementSize⟩) :=
    Span.splitAt_of_le (Nat.le_trans (Nat.le_add_right _ _) rightPlace)
  have low : Span.part ⟨0, right * store.elementSize⟩
      ⟨left * store.elementSize, store.elementSize⟩ =
        .ok ⟨0 + left * store.elementSize, store.elementSize⟩ :=
    Span.part_of_le leftPlace
  have high : Span.part
      ⟨0 + right * store.elementSize, store.block.size - right * store.elementSize⟩
      ⟨0, store.elementSize⟩ = .ok ⟨0 + right * store.elementSize + 0, store.elementSize⟩ :=
    Span.part_of_le (by change 0 + store.elementSize ≤ _; dsimp only; omega)
  rw [exchanged, byteRange_inside sound leftInside, except_ok_bind,
    byteRange_inside sound rightInside, except_ok_bind]
  simp only [split, except_ok_bind, low, high, Buffer.exchange, if_true]
  simp only [Nat.zero_add, Nat.add_zero]
  rfl

theorem exchange_inside (sound : store.Sound) (different : left ≠ right)
    (leftInside : left < store.size) (rightInside : right < store.size) :
    Flat.exchange left right store = .ok () (store.swapped left right) := by
  have inOrder : store.exchanged (min left right) (max left right) =
      .ok (store.swapped left right).block := by
    rcases Nat.lt_or_gt_of_ne different with before | after
    · rw [Nat.min_eq_left (Nat.le_of_lt before), Nat.max_eq_right (Nat.le_of_lt before)]
      exact exchanged_inside sound before rightInside
    · rw [Nat.min_eq_right (Nat.le_of_lt after), Nat.max_eq_left (Nat.le_of_lt after),
        swapped_comm sound different leftInside rightInside]
      exact exchanged_inside sound after leftInside
  simp only [exchange, bind_apply, get_apply, if_neg different, inOrder, ofExcept_ok_apply,
    modify_apply]
  rfl

theorem exchange_outside (sound : store.Sound) (different : left ≠ right)
    (outside : ¬ (left < store.size ∧ right < store.size)) :
    ∃ fault, Flat.exchange left right store = .error fault store := by
  have missing : ∃ fault, store.exchanged (min left right) (max left right) = .error fault := by
    by_cases lower : min left right < store.size
    · rw [exchanged, byteRange_inside sound lower, except_ok_bind,
        byteRange_outside (by omega : store.size ≤ max left right)]
      exact ⟨_, rfl⟩
    · rw [exchanged, byteRange_outside (Nat.le_of_not_lt lower)]
      exact ⟨_, rfl⟩
  obtain ⟨fault, missing⟩ := missing
  exact ⟨fault, by
    simp only [exchange, bind_apply, get_apply, if_neg different, missing,
      ofExcept_error_apply]⟩

/-- By way of a scratch copy the same is done to the block as inside it. -/
theorem swapByCopy_inside (sound : store.Sound) (different : left ≠ right)
    (leftInside : left < store.size) (rightInside : right < store.size) :
    Elements.swapByCopy left right store = .ok () (store.swapped left right) := by
  have copied : Elements.copy right left store =
      .ok () (store.withCell left (store.cell right)) := by
    simp only [Elements.copy, if_neg different.symm, bind_apply, get_apply, Elements.element,
      Elements.overwrite, element_inside sound rightInside, ofExcept_ok_apply]
    exact overwrite_inside_eq sound leftInside rfl
  simp only [Elements.swapByCopy, if_neg different, bind_apply, get_apply, Elements.element,
    element_inside sound leftInside, ofExcept_ok_apply, copied]
  exact overwrite_inside_eq (sound_withCell sound left _) rightInside rfl

theorem swapByCopy_outside (sound : store.Sound) (different : left ≠ right)
    (outside : ¬ (left < store.size ∧ right < store.size)) :
    ∃ fault, Elements.swapByCopy left right store = .error fault store := by
  by_cases leftInside : left < store.size
  · have rightOutside : store.size ≤ right := by omega
    refine ⟨store.outOfBounds right, ?_⟩
    simp only [Elements.swapByCopy, Elements.copy, if_neg different, if_neg different.symm,
      bind_apply, get_apply, Elements.element, element_inside sound leftInside,
      element_outside rightOutside, ofExcept_ok_apply, ofExcept_error_apply]
  · refine ⟨store.outOfBounds left, ?_⟩
    simp only [Elements.swapByCopy, if_neg different, bind_apply, get_apply, Elements.element,
      element_outside (Nat.le_of_not_lt leftInside), ofExcept_error_apply]

end Writing

/-- Two stores of as many elements. -/
def SameSize (before after : Flat medium) : Prop :=
  after.size = before.size

theorem SameSize.refl (store : Flat medium) : SameSize store store :=
  Eq.refl store.size

theorem SameSize.trans (first second third : Flat medium) (before : SameSize first second)
    (after : SameSize second third) : SameSize first third :=
  Eq.trans after before

theorem overwrite_sameSize (index : Nat) (contents : Buffer) :
    Preserves SameSize (Elements.overwrite index contents : EStateM Fault (Flat medium) Unit) := by
  change Preserves SameSize (Flat.overwrite index contents)
  unfold Flat.overwrite
  apply Preserves.bind SameSize.trans (Preserves.get SameSize.refl)
  intro store
  apply Preserves.bind SameSize.trans (Preserves.ofExcept SameSize.refl _)
  intro range
  apply Preserves.bind SameSize.trans (Preserves.ofExcept SameSize.refl _)
  intro place
  apply Preserves.bind SameSize.trans (Preserves.ofExcept SameSize.refl _)
  intro block
  exact Preserves.modify fun _ => rfl

theorem exchange_sameSize (left right : Nat) :
    Preserves SameSize (Flat.exchange left right : EStateM Fault (Flat medium) Unit) := by
  unfold Flat.exchange
  apply Preserves.bind SameSize.trans (Preserves.get SameSize.refl)
  intro store
  split
  · exact Preserves.pure SameSize.refl ()
  · apply Preserves.bind SameSize.trans (Preserves.ofExcept SameSize.refl _)
    intro block
    exact Preserves.modify fun _ => rfl

theorem copy_sameSize (source target : Nat) :
    Preserves SameSize (Elements.copy source target : EStateM Fault (Flat medium) Unit) := by
  unfold Elements.copy
  split
  · exact Preserves.pure SameSize.refl ()
  · apply Preserves.bind SameSize.trans (Preserves.get SameSize.refl)
    intro store
    apply Preserves.bind SameSize.trans (Preserves.ofExcept SameSize.refl _)
    intro contents
    exact overwrite_sameSize target contents

theorem swapByCopy_sameSize (left right : Nat) :
    Preserves SameSize (Elements.swapByCopy left right : EStateM Fault (Flat medium) Unit) := by
  unfold Elements.swapByCopy
  split
  · exact Preserves.pure SameSize.refl ()
  · apply Preserves.bind SameSize.trans (Preserves.get SameSize.refl)
    intro store
    apply Preserves.bind SameSize.trans (Preserves.ofExcept SameSize.refl _)
    intro scratch
    apply Preserves.bind SameSize.trans (copy_sameSize right left)
    intro _
    exact overwrite_sameSize right scratch

theorem swap_sameSize (left right : Nat) :
    Preserves SameSize (Store.swap left right : EStateM Fault (Flat medium) Unit) := by
  cases medium with
  | heap => exact exchange_sameSize left right
  | mapped => exact swapByCopy_sameSize left right

instance : LawfulStore (Flat medium) where
  Sound := Sound
  Affords := Affords
  elementSize_pos := Sound.elementSize_pos
  size_le_maxSize := Sound.size_le_maxSize
  element_eq {store} sound index := by
    rw [contents_eq sound]
    change Flat.element store index =
      if index < store.size then .ok (store.cell index) else .error (store.outOfBounds index)
    by_cases inside : index < store.size
    · rw [if_pos inside, element_inside sound inside]
    · rw [if_neg inside, element_outside (Nat.le_of_not_lt inside)]
  size_contents {store} sound index := by
    rw [contents_eq sound]
    rfl
  resize_within {store count} _ within := by
    change count ≤ store.size at within
    change Flat.resize count store = _
    simp only [Flat.resize, bind_apply, get_apply, if_pos within, pure_apply]
  resize_beyond {store count} sound beyond := by
    change store.maxSize < count at beyond
    have larger : ¬ count ≤ store.size :=
      Nat.not_le.mpr (Nat.lt_of_le_of_lt sound.size_le_maxSize beyond)
    change Flat.resize count store = _
    simp only [Flat.resize, bind_apply, get_apply, if_neg larger, if_pos beyond, throw_apply]
    rfl
  resize_affordable sound within affordable := resize_affordable sound within affordable
  resize_ok sound done := resize_ok sound done
  resize_error sound refused := resize_error sound refused
  overwrite_inside sound inside fits := overwrite_inside sound inside fits
  overwrite_outside _ outside := overwrite_outside outside
  swap_self {store index} := by
    cases medium with
    | heap =>
        simp only [Store.swap, Flat.swap, exchange, bind_apply, get_apply, if_true, pure_apply]
    | mapped => simp only [Store.swap, Flat.swap, Elements.swapByCopy, if_true, pure_apply]
  swap_inside {store left right} sound different leftInside rightInside := by
    refine ⟨store.swapped left right, ?_, becomes_swapped sound leftInside rightInside⟩
    cases medium with
    | heap => exact exchange_inside sound different leftInside rightInside
    | mapped => exact swapByCopy_inside sound different leftInside rightInside
  swap_outside {store left right} sound different outside := by
    cases medium with
    | heap => exact exchange_outside sound different outside
    | mapped => exact swapByCopy_outside sound different outside

/-! ## Opening -/

section Opening

variable {elementSize count maxBytes : Nat} {mapper : Mapper} {store : Flat medium}

theorem sound_empty (bytes : 0 < elementSize) (maxBytes : Nat) (mapper : Mapper) :
    (empty elementSize maxBytes mapper : Flat medium).Sound where
  elementSize_pos := bytes
  size_le_maxSize := Nat.zero_le _
  size_block := (Nat.zero_mul _).symm
  block_lt := by
    change 0 < Address.blockLimit
    decide

/-- A store is opened by growing one without elements. -/
theorem createBounded_eq_ok_iff :
    createBounded elementSize count maxBytes mapper = .ok store ↔
      0 < elementSize ∧ resize count (empty elementSize maxBytes mapper) = .ok () store := by
  unfold createBounded
  by_cases noBytes : elementSize = 0
  · simp [noBytes]
  · rw [if_neg noBytes]
    cases resize count (empty elementSize maxBytes mapper : Flat medium) with
    | ok _ grown => simp [Nat.pos_of_ne_zero noBytes]
    | error failure left => simp

/-- A store opened is new, and has the size, the bound and the system asked for. -/
theorem createBounded_ok
    (opened : createBounded elementSize count maxBytes mapper = .ok store) :
    Store.Fresh elementSize count store ∧ store.maxSize = maxBytes / elementSize := by
  obtain ⟨bytes, grown⟩ := createBounded_eq_ok_iff.mp opened
  have sound : (empty elementSize maxBytes mapper : Flat medium).Sound :=
    sound_empty bytes maxBytes mapper
  have becomes := resize_ok sound grown
  refine ⟨⟨becomes.sound, becomes.elementSize_eq, ?_, ?_⟩, becomes.maxSize_eq⟩
  · exact becomes.size_eq.trans (Nat.zero_max count)
  · intro index
    rw [becomes.contents_eq, contents_eq sound]
    exact Buffer.slice_past_end (Nat.zero_le _) _

/-- What a store opened affords is told by what it was opened on. -/
theorem affords_createBounded
    (opened : createBounded elementSize count maxBytes mapper = .ok store) (more : Nat) :
    store.Affords more ↔ medium.Gives mapper (more * elementSize) := by
  obtain ⟨bytes, grown⟩ := createBounded_eq_ok_iff.mp opened
  exact (resize_ok (sound_empty bytes maxBytes mapper) grown).affords_iff more

/-- There is memory for all of a store whose bound the medium gives. -/
theorem ample_createBounded
    (opened : createBounded elementSize count maxBytes mapper = .ok store)
    (given : ∀ bytes ≤ maxBytes, medium.Gives mapper bytes) : Store.Ample store := by
  obtain ⟨bytes, -⟩ := createBounded_eq_ok_iff.mp opened
  intro more within
  change more ≤ store.maxSize at within
  rw [(createBounded_ok opened).2] at within
  exact (affords_createBounded opened more).mpr
    (given _ ((Nat.le_div_iff_mul_le bytes).mp within))

/-- There are stores of every size that the bound allows and the medium gives. -/
theorem exists_createBounded (bytes : 0 < elementSize)
    (bounded : count * elementSize ≤ maxBytes) (given : medium.Gives mapper (count * elementSize)) :
    ∃ store : Flat medium, createBounded elementSize count maxBytes mapper = .ok store := by
  have within : count ≤ (empty elementSize maxBytes mapper : Flat medium).maxSize :=
    (Nat.le_div_iff_mul_le bytes).mpr bounded
  obtain ⟨grown, done⟩ := resize_affordable (sound_empty bytes maxBytes mapper) within given
  exact ⟨grown, createBounded_eq_ok_iff.mpr ⟨bytes, done⟩⟩

/-- A mapped store that the bound leaves room for is opened if its region is mapped. -/
theorem createBounded_mapped (bytes : 0 < elementSize) (bounded : count * elementSize ≤ maxBytes)
    (fits : count * elementSize < Address.limit) :
    (∃ store : Mapped, createBounded elementSize count maxBytes mapper = .ok store) ∨
      (createBounded elementSize count maxBytes mapper : Except _ Mapped) =
        .error (.refused .mapFailed) := by
  by_cases none : count = 0
  · refine .inl (exists_createBounded bytes bounded ?_)
    rw [none, Nat.zero_mul]
    exact Medium.gives_zero .mapped mapper
  · have within : count ≤ (empty elementSize maxBytes mapper : Mapped).maxSize :=
      (Nat.le_div_iff_mul_le bytes).mpr bounded
    have counted : (empty elementSize maxBytes mapper : Mapped).bytesFor count =
        .ok (count * elementSize) := Address.check_of_lt fits
    have longer : (empty elementSize maxBytes mapper : Mapped).block.size ≤
        count * elementSize := Nat.zero_le _
    have grown := resize_larger (Nat.pos_of_ne_zero none) within
    simp only [bind_apply, counted, orFault_ok_apply, grow, remap_eq longer] at grown
    rw [createBounded, if_neg (Nat.ne_of_gt bytes), grown]
    by_cases mapped : mapper.maps 0 (count * elementSize) = true
    · exact .inl ⟨_, by simp only [empty, mapped, if_true]; rfl⟩
    · exact .inr (by simp only [empty, mapped, if_false, Bool.false_eq_true])

/-- No store is opened with more elements than the bound allows. -/
theorem createBounded_beyond (bytes : 0 < elementSize)
    (beyond : maxBytes / elementSize < count) :
    (createBounded elementSize count maxBytes mapper : Except _ (Flat medium)) =
      .error (.refused (.capacityExceeded count (maxBytes / elementSize))) := by
  have sound : LawfulStore.Sound (empty elementSize maxBytes mapper : Flat medium) :=
    sound_empty bytes maxBytes mapper
  have refused : resize count (empty elementSize maxBytes mapper : Flat medium) =
      .error (.refused (.capacityExceeded count (maxBytes / elementSize)))
        (empty elementSize maxBytes mapper) :=
    LawfulStore.resize_beyond sound beyond
  rw [createBounded, if_neg (Nat.ne_of_gt bytes), refused]

end Opening

end Flat

/-- Whether a system gives every block that one array may have unless it is opened with
another bound. -/
def System.Serves (system : System) (medium : Medium) : Prop :=
  ∀ store bytes, bytes ≤ Store.defaultMaxBytes → medium.Gives (system.mapper store) bytes

theorem System.serves_heap (system : System) : system.Serves .heap :=
  fun _ _ bounded => Medium.gives_heap (Nat.lt_of_le_of_lt bounded (by decide))

/-- The usual system has that much memory. -/
theorem System.usual_serves (medium : Medium) : System.usual.Serves medium := by
  intro store bytes bounded
  cases medium with
  | heap => exact System.serves_heap _ store bytes bounded
  | mapped =>
      intro some request
      have few : bytes < 1 <<< 60 := Nat.lt_of_le_of_lt bounded (by decide)
      change (decide (0 < bytes) && decide (bytes < 1 <<< 60)) = true
      rw [decide_eq_true some, decide_eq_true few]
      rfl

/-- The usual system, but for some requests for regions that it refuses. -/
def System.refusing (refuses : (store request : Nat) → Bool) : System where
  mapper store := {
    maps := fun request bytes =>
      !refuses store request && (System.usual.mapper store).maps request bytes
    lt_of_maps := fun mapped =>
      (System.usual.mapper store).lt_of_maps (Bool.and_eq_true_iff.mp mapped).2 }
  queues := System.usual.queues

/-- The usual system, short of memory at times: the second region that store 1 asks for, and
all that store 2 asks for, are refused. -/
def System.faltering : System :=
  .refusing fun store request => store == 1 && request == 1 || store == 2

instance {medium : Medium} : LawfulSubStore (Flat medium) where
  Supplies system elementSize count :=
    0 < elementSize ∧ count * elementSize ≤ Store.defaultMaxBytes ∧
      ∀ store, medium.Gives (system.mapper store) (count * elementSize)
  allocate_ok opened := (Flat.createBounded_ok opened).1
  allocate_bound {system attempt elementSize count more store} opened supplied := by
    obtain ⟨bytes, bounded, given⟩ := supplied
    constructor
    · change more ≤ store.maxSize
      rw [(Flat.createBounded_ok opened).2]
      exact (Nat.le_div_iff_mul_le bytes).mpr bounded
    · exact (Flat.affords_createBounded opened more).mpr (given attempt)
  allocate_supplied {system attempt elementSize count} supplied :=
    Flat.exists_createBounded supplied.1 supplied.2.1 (supplied.2.2 attempt)

end RecordPool
