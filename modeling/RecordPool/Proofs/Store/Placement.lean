import RecordPool.Proofs.Store.Access
import RecordPool.Proofs.Store.Chain.Shape

/-!
# Elements in memory

A flat store has its elements end to end in one block of memory, and a chain in the blocks of its
sub-arrays.  The elements fill their blocks at all times, as blocks only grow by zeros, and by as
many as the new elements take.  The places of different elements have no byte in common, each of
them is inside its block, and they are reckoned in machine words, as are the lengths of blocks
that grow, without an overflow.
-/

namespace RecordPool

namespace Block

/-- A block with a run of its bytes written over. -/
def splice (block : Bytes) (start : Nat) (image : Bytes) : Bytes :=
  block.take start ++ image ++ block.drop (start + image.length)

/-- Blocks that follow from others by growth: each of them is the one that was there, if there
was one, with zeros after it. -/
structure Lengthened (before after : List Bytes) : Prop where
  length_le : before.length ≤ after.length
  extended : ∀ {number : Nat} {block : Bytes}, after[number]? = some block →
    ∃ more, block = before.getD number [] ++ List.replicate more 0

namespace Lengthened

variable {first second third blocks : List Bytes} {number : Nat} {block : Bytes}

theorem refl (blocks : List Bytes) : Lengthened blocks blocks where
  length_le := Nat.le_refl _
  extended {number block} there := by
    refine ⟨0, ?_⟩
    rw [List.getD_eq_getElem?_getD, there, Option.getD_some, List.replicate_zero, List.append_nil]

theorem trans (before : Lengthened first second) (after : Lengthened second third) :
    Lengthened first third where
  length_le := Nat.le_trans before.length_le after.length_le
  extended {number block} there := by
    obtain ⟨later, rfl⟩ := after.extended there
    cases between : second[number]? with
    | none =>
        have past : second.length ≤ number := List.getElem?_eq_none_iff.mp between
        have absent : first[number]? = none :=
          List.getElem?_eq_none_iff.mpr (Nat.le_trans before.length_le past)
        refine ⟨later, ?_⟩
        rw [List.getD_eq_getElem?_getD, List.getD_eq_getElem?_getD, between, absent]
    | some middle =>
        obtain ⟨earlier, rfl⟩ := before.extended between
        refine ⟨earlier + later, ?_⟩
        rw [List.getD_eq_getElem?_getD, between, Option.getD_some, List.append_assoc,
          List.replicate_append_replicate]

/-- One block becomes longer. -/
theorem set (there : blocks[number]? = some block) (more : Nat) :
    Lengthened blocks (blocks.set number (block ++ List.replicate more 0)) where
  length_le := by rw [List.length_set]
  extended {other found} later := by
    by_cases here : number = other
    · have inside : number < blocks.length := (List.getElem?_eq_some_iff.mp there).1
      rw [← here, List.getElem?_set_self inside] at later
      rw [← here, List.getD_eq_getElem?_getD, there, Option.getD_some]
      exact ⟨more, (Option.some.inj later).symm⟩
    · rw [List.getElem?_set_ne here] at later
      exact (refl blocks).extended later

/-- A new block is zero. -/
theorem push (blocks : List Bytes) (more : Nat) :
    Lengthened blocks (blocks ++ [List.replicate more 0]) where
  length_le := by rw [List.length_append]; exact Nat.le_add_right _ _
  extended {number found} later := by
    rw [List.getElem?_append] at later
    split at later
    case isTrue => exact (refl blocks).extended later
    case isFalse past =>
        have absent : blocks[number]? = none :=
          List.getElem?_eq_none_iff.mpr (Nat.le_of_not_lt past)
        refine ⟨more, ?_⟩
        rw [List.getD_eq_getElem?_getD, absent, Option.getD_none, List.nil_append]
        exact (List.mem_singleton.mp (List.mem_of_getElem? later))

end Lengthened

end Block

/-- Where the elements of a kind of stores are. -/
structure Placement (σ : Type) where
  /-- The blocks of memory. -/
  blocks : σ → List Bytes
  /-- How many elements a block has. -/
  elementsIn : σ → (number : Nat) → Nat
  /-- How many bytes a block may have. -/
  bytesWithin : σ → (number : Nat) → Nat
  /-- The number of the block of an element, and its bytes there. -/
  place : σ → (index : Nat) → Except Fault (Nat × Span)
  /-- How many blocks a number of elements takes. -/
  blocksFor : σ → (count : Nat) → Nat
  /-- How many bytes one of these blocks takes. -/
  blockBytes : σ → (count number : Nat) → Except Fault Nat

/-- What can be relied on about the places of elements. -/
structure Placement.Lawful {σ : Type} [Store σ] (placement : Placement σ) (store : σ) : Prop where
  /-- Its elements fill a block, and it has no more bytes than it may have. -/
  filled : ∀ {number : Nat} {block : Bytes}, (placement.blocks store)[number]? = some block →
    block.length = placement.elementsIn store number * Elements.elementSize store ∧
      block.length ≤ placement.bytesWithin store number
  /-- All positions in a block are machine words. -/
  addressable : ∀ {block : Bytes}, block ∈ placement.blocks store → block.length < Address.limit
  /-- An element is all of the bytes in its place. -/
  inside : ∀ {index : Nat}, index < Elements.size store →
    ∃ number span block contents, placement.place store index = .ok (number, span) ∧
      (placement.blocks store)[number]? = some block ∧ span.stop ≤ block.length ∧
      span.count = Elements.elementSize store ∧ Elements.element store index = .ok contents ∧
      (block.drop span.start).take span.count = contents.toBytes
  /-- Different elements are in different blocks or have no byte in common. -/
  apart : ∀ {index other number number' : Nat} {span span' : Span}, index ≠ other →
    placement.place store index = .ok (number, span) →
    placement.place store other = .ok (number', span') →
    number ≠ number' ∨ span.stop ≤ span'.start ∨ span'.stop ≤ span.start
  /-- A value is written over the bytes from its offset in the place on, and over no others. -/
  written : ∀ {index offset number : Nat} {kind : Kind} {span : Span} {after : σ}
    (value : kind.Carrier), Store.HasPlace store index kind offset →
    placement.place store index = .ok (number, span) →
    Elements.write index kind offset value store = .ok () after →
    ∃ block, (placement.blocks store)[number]? = some block ∧
      placement.blocks after =
        (placement.blocks store).set number
          (Block.splice block (span.start + offset) (kind.encode value))
  /-- However a request to grow ends, the blocks have the bytes that they had, and zeros after
  these. -/
  lengthened : ∀ count, Block.Lengthened (placement.blocks store)
    (placement.blocks (stateLeft (Store.resize count store)))
  /-- No length overflows that the store can grow to. -/
  growth : ∀ {count number : Nat}, count ≤ Store.maxSize store →
    number < placement.blocksFor store count →
    ∃ bytes, placement.blockBytes store count number = .ok bytes

/-! ## Flat stores -/

namespace Flat

variable {medium : Medium} {store : Flat medium} {index count : Nat}

/-- The bytes of the block. -/
def bytes (store : Flat medium) : Bytes :=
  store.block.toBytes

/-- The elements are in one block. -/
def placement : Placement (Flat medium) where
  blocks store := [store.bytes]
  elementsIn store _ := store.size
  bytesWithin store _ := store.maxBytes
  place store index := (0, ·) <$> store.byteRange index
  blocksFor _ _ := 1
  blockBytes store count _ := store.bytesFor count

theorem length_bytes (sound : store.Sound) :
    store.bytes.length = store.size * store.elementSize :=
  (Buffer.length_toBytes _).trans sound.size_block

/-- No block has more bytes than the bound of its store. -/
theorem length_bytes_le (sound : store.Sound) : store.bytes.length ≤ store.maxBytes := by
  rw [length_bytes sound]
  exact (Nat.le_div_iff_mul_le sound.elementSize_pos).mp sound.size_le_maxSize

theorem length_bytes_lt (sound : store.Sound) : store.bytes.length < Address.limit := by
  rw [bytes, Buffer.length_toBytes]
  exact Nat.lt_trans sound.block_lt (by decide)

theorem byteRange_eq_ok {span : Span} (sound : store.Sound)
    (there : store.byteRange index = .ok span) :
    index < store.size ∧ span = ⟨index * store.elementSize, store.elementSize⟩ := by
  by_cases inside : index < store.size
  · rw [byteRange_inside sound inside] at there
    exact ⟨inside, (Except.ok.inj there).symm⟩
  · rw [byteRange_outside (Nat.le_of_not_lt inside)] at there
    cases there

/-- The element is what its bytes in the block are. -/
theorem take_drop_bytes (sound : store.Sound) (inside : index < store.size) :
    (store.bytes.drop (index * store.elementSize)).take store.elementSize =
      (store.cell index).toBytes :=
  (Buffer.toBytes_slice (place_le sound inside)).symm

theorem byteRange_apart {other : Nat} {span span' : Span} (sound : store.Sound)
    (different : index ≠ other) (there : store.byteRange index = .ok span)
    (there' : store.byteRange other = .ok span') :
    span.stop ≤ span'.start ∨ span'.stop ≤ span.start := by
  obtain ⟨-, rfl⟩ := byteRange_eq_ok sound there
  obtain ⟨-, rfl⟩ := byteRange_eq_ok sound there'
  exact places_apart store.elementSize different

/-- To write bytes over an element is to write them over those of the block. -/
theorem bytes_withCell {image : Bytes} {offset : Nat} (sound : store.Sound)
    (inside : index < store.size) (fits : offset + image.length ≤ store.elementSize) :
    (store.withCell index ((store.cell index).writeAt offset image)).bytes =
      Block.splice store.bytes (index * store.elementSize + offset) image := by
  have place := place_le sound inside
  have written : (store.withCell index ((store.cell index).writeAt offset image)).block =
      store.block.writeAt (index * store.elementSize + offset) image :=
    Buffer.splice_slice_writeAt place fits
  rw [bytes, written]
  exact Buffer.toBytes_writeAt (by omega)

/-- A typed write puts the bytes of the value over those from its offset in the element on. -/
theorem bytes_write {offset : Nat} {kind : Kind} {after : Flat medium} (sound : store.Sound)
    (inside : index < store.size) (value : kind.Carrier)
    (hasPlace : Store.HasPlace store index kind offset)
    (done : Elements.write index kind offset value store = .ok () after) :
    after.bytes =
      Block.splice store.bytes (index * store.elementSize + offset) (kind.encode value) := by
  have lawful : LawfulStore.Sound store := sound
  have whole : ((store.cell index).writeAt offset (kind.encode value)).size =
      store.elementSize := Buffer.size_writeAt _ _ _
  rw [Store.write_eq_overwrite lawful value hasPlace, contents_eq sound] at done
  change Flat.overwrite index _ store = _ at done
  rw [overwrite_inside_eq sound inside whole] at done
  cases done
  exact bytes_withCell sound inside (hasPlace.length_le value)

/-- However a request to grow ends, the block has the bytes that it had, and zeros after
these. -/
theorem bytes_resize (sound : store.Sound) (count : Nat) :
    ∃ more, (stateLeft (Flat.resize count store)).bytes =
      store.bytes ++ List.replicate more 0 := by
  have same : ∃ more, store.bytes = store.bytes ++ List.replicate more 0 :=
    ⟨0, (List.append_nil _).symm⟩
  cases resized : Flat.resize count store with
  | error failure left =>
      obtain ⟨requests, rfl⟩ := resize_error_cases sound resized
      exact same
  | ok _ grown =>
      rcases resize_ok_cases sound resized with ⟨-, rfl⟩ | ⟨larger, -, -, requests, rfl⟩
      · exact same
      · exact ⟨_, Buffer.toBytes_resize (size_block_le sound (Nat.le_of_lt larger))⟩

theorem placement_lawful (sound : store.Sound)
    (bounded : store.maxSize * store.elementSize < Address.limit) : placement.Lawful store where
  filled {number block} there := by
    obtain rfl : block = store.bytes := List.mem_singleton.mp (List.mem_of_getElem? there)
    exact ⟨length_bytes sound, length_bytes_le sound⟩
  addressable among := by
    rw [List.mem_singleton.mp among]
    exact length_bytes_lt sound
  inside {index} inside := by
    refine ⟨0, ⟨index * store.elementSize, store.elementSize⟩, store.bytes, store.cell index,
      ?_, rfl, ?_, rfl, element_inside sound inside, take_drop_bytes sound inside⟩
    · exact except_map_eq_ok_iff.mpr ⟨_, byteRange_inside sound inside, rfl⟩
    · rw [bytes, Buffer.length_toBytes]
      exact place_le sound inside
  apart different there there' := by
    obtain ⟨span, range, same⟩ := except_map_eq_ok_iff.mp there
    obtain ⟨span', range', same'⟩ := except_map_eq_ok_iff.mp there'
    cases same
    cases same'
    exact .inr (byteRange_apart sound different range range')
  written {index offset number kind span after} value hasPlace there done := by
    obtain ⟨range, found, same⟩ := except_map_eq_ok_iff.mp there
    cases same
    obtain ⟨inside, rfl⟩ := byteRange_eq_ok sound found
    exact ⟨store.bytes, rfl, congrArg (fun bytes => [bytes])
      (bytes_write sound inside value hasPlace done)⟩
  lengthened count := by
    obtain ⟨more, bytes⟩ := bytes_resize sound count
    have set := Block.Lengthened.set
      (show [store.bytes][0]? = some store.bytes from rfl) more
    rw [← bytes] at set
    exact set
  growth {count _} within _ := by
    have fewer : count * store.elementSize ≤ store.maxSize * store.elementSize :=
      Nat.mul_le_mul_right _ within
    exact ⟨_, Address.check_of_lt (Nat.lt_of_le_of_lt fewer bounded)⟩

end Flat

/-! ## Chains -/

namespace Chain

variable {medium : Medium} {chain : Chain (Flat medium)} {index count : Nat}

/-- The sub-array of an element and its bytes there. -/
def place (chain : Chain (Flat medium)) (index : Nat) : Except Fault (Nat × Span) :=
  if index < chain.size then
    let (array, localIndex) := chain.locate index
    match chain.arrays[array]? with
    | some store => (array, ·) <$> store.byteRange localIndex
    | none => .error (chain.outOfBounds index)
  else
    .error (chain.outOfBounds index)

/-- A sub-array, or the one that is opened when there is none. -/
def arrayOrEmpty (chain : Chain (Flat medium)) (array : Nat) : Flat medium :=
  match chain.arrays[array]? with
  | some store => store
  | none =>
      .empty chain.elementSize Store.defaultMaxBytes (chain.system.mapper chain.attempts)

/-- The bytes of a sub-array for a number of elements in all. -/
def bytesFor (chain : Chain (Flat medium)) (count array : Nat) : Except Fault Nat := do
  let needed ← chain.arraysInWords count
  let target ← chain.targetInWords count needed array
  (chain.arrayOrEmpty array).bytesFor target

/-- The elements are in the blocks of the sub-arrays. -/
def placement : Placement (Chain (Flat medium)) where
  blocks chain := chain.arrays.toList.map Flat.bytes
  elementsIn := arraySize
  bytesWithin chain array := (chain.arrayOrEmpty array).maxBytes
  place := place
  blocksFor := arraysFor
  blockBytes := bytesFor

theorem getElem?_blocks (chain : Chain (Flat medium)) (array : Nat) :
    (placement.blocks chain)[array]? = chain.arrays[array]?.map Flat.bytes := by
  simp only [placement, List.getElem?_map, Array.getElem?_toList]

theorem blocks_withArray (chain : Chain (Flat medium)) (array : Nat) (store : Flat medium) :
    placement.blocks (chain.withArray array store) =
      (placement.blocks chain).set array store.bytes := by
  simp only [placement, withArray, Array.toList_setIfInBounds, List.map_set]

theorem place_eq {store : Flat medium} (inside : index < chain.size)
    (present : chain.arrays[index / chain.arrayLength]? = some store) :
    chain.place index = (index / chain.arrayLength, ·) <$>
      store.byteRange (index % chain.arrayLength) := by
  simp only [place, if_pos inside, locate, present]

theorem place_eq_ok {number : Nat} {span : Span} (there : chain.place index = .ok (number, span)) :
    number = index / chain.arrayLength ∧ ∃ store, chain.arrays[number]? = some store ∧
      store.byteRange (index % chain.arrayLength) = .ok span := by
  by_cases inside : index < chain.size
  · cases present : chain.arrays[index / chain.arrayLength]? with
    | none =>
        simp only [place, if_pos inside, locate, present] at there
        cases there
    | some store =>
        rw [place_eq inside present] at there
        obtain ⟨span', range, same⟩ := except_map_eq_ok_iff.mp there
        cases same
        exact ⟨rfl, store, present, range⟩
  · rw [place, if_neg inside] at there
    cases there

/-- An element of the chain is the one in its place in a sub-array. -/
theorem element_place (sound : chain.Sound) (inside : index < chain.size) :
    ∃ store, chain.arrays[index / chain.arrayLength]? = some store ∧ store.Sound ∧
      store.elementSize = chain.elementSize ∧ index % chain.arrayLength < store.size ∧
      Elements.element chain index = .ok (store.cell (index % chain.arrayLength)) := by
  obtain ⟨store, present, localInside⟩ := exists_array sound inside
  have fits := sound.fits present
  have storeSound : store.Sound := fits.sound
  refine ⟨store, present, storeSound, fits.elementSize_eq, localInside, ?_⟩
  have there := LawfulStore.element_inside (show LawfulStore.Sound chain from sound) inside
  rw [there, contents_of_present sound present, Flat.contents_eq storeSound]

/-- A typed write changes the block of one sub-array. -/
theorem blocks_write {offset : Nat} {kind : Kind} {after : Chain (Flat medium)}
    {store : Flat medium} (sound : chain.Sound)
    (present : chain.arrays[index / chain.arrayLength]? = some store)
    (localInside : index % chain.arrayLength < store.size) (value : kind.Carrier)
    (hasPlace : Store.HasPlace chain index kind offset)
    (done : Elements.write index kind offset value chain = .ok () after) :
    placement.blocks after =
      (placement.blocks chain).set (index / chain.arrayLength)
        (Block.splice store.bytes (index % chain.arrayLength * store.elementSize + offset)
          (kind.encode value)) := by
  have lawful : LawfulStore.Sound chain := sound
  have fits := sound.fits present
  have storeSound : store.Sound := fits.sound
  have room : offset + (kind.encode value).length ≤ store.elementSize :=
    Nat.le_trans (hasPlace.length_le value) (Nat.le_of_eq fits.elementSize_eq.symm)
  have written := Flat.overwrite_inside_eq storeSound localInside
    (Buffer.size_writeAt (store.cell (index % chain.arrayLength)) offset (kind.encode value))
  rw [Store.write_eq_overwrite lawful value hasPlace, contents_of_present sound present,
    Flat.contents_eq storeSound] at done
  change Chain.overwrite index _ chain = _ at done
  rw [overwrite_present hasPlace.1 present written] at done
  cases done
  rw [blocks_withArray, Flat.bytes_withCell storeSound localInside room]

/-- The chains whose sub-arrays a block has room for when they are full. -/
structure Short (chain : Chain (Flat medium)) : Prop where
  sound : chain.Sound
  bytes_le : chain.arrayLength * chain.elementSize ≤ Store.defaultMaxBytes

/-- The growth of a sub-array lengthens its block, or adds a block of zeros. -/
theorem lengthened_growArray (array count : Nat) (sound : chain.Sound) :
    Block.Lengthened (placement.blocks chain)
      (placement.blocks (stateLeft (growArray array count chain))) := by
  cases present : chain.arrays[array]? with
  | some store =>
      have left : stateLeft (growArray array count chain) =
          chain.withArray array (stateLeft (Store.resize count store)) := by
        unfold growArray
        simp only [present]
        cases Store.resize count store <;> rfl
      have there : (placement.blocks chain)[array]? = some store.bytes := by
        rw [getElem?_blocks, present, Option.map_some]
      obtain ⟨more, bytes⟩ : ∃ more, (stateLeft (Store.resize count store)).bytes =
          store.bytes ++ List.replicate more 0 := Flat.bytes_resize (sound.fits present).sound count
      rw [left, blocks_withArray, bytes]
      exact .set there more
  | none =>
      unfold growArray
      simp only [present]
      cases opened : SubStore.allocate (σ := Flat medium) chain.system chain.attempts
          chain.elementSize count with
      | error failure => exact .refl _
      | ok store =>
          obtain ⟨bytes, grown⟩ := Flat.createBounded_eq_ok_iff.mp
            (show Flat.createBounded chain.elementSize count Store.defaultMaxBytes
              (chain.system.mapper chain.attempts) = .ok store from opened)
          obtain ⟨more, zeros⟩ := Flat.bytes_resize
            (Flat.sound_empty bytes Store.defaultMaxBytes
              (chain.system.mapper chain.attempts)) count
          rw [grown] at zeros
          have added : placement.blocks { chain with
              arrays := chain.arrays.push store, attempts := chain.attempts + 1 } =
                placement.blocks chain ++ [List.replicate more 0] := by
            simp only [placement, Array.toList_push, List.map_append, List.map_singleton]
            exact congrArg _ (congrArg (fun bytes => [bytes]) zeros)
          rw [stateLeft_ok, added]
          exact .push _ more

theorem lengthened_resize (sound : chain.Sound) (count : Nat) :
    Block.Lengthened (placement.blocks chain)
      (placement.blocks (stateLeft (Chain.resize count chain))) := by
  apply resize_keeps (fun before after =>
    Block.Lengthened (placement.blocks before) (placement.blocks after)) _ _ _ _ sound count
  · exact fun chain => .refl _
  · exact fun _ _ _ => Block.Lengthened.trans
  · exact fun chain _ => .refl (placement.blocks chain)
  · exact fun count sound _ => lengthened_growArray _ count sound

/-- A sub-array that grows is not made for other elements, nor for more of them. -/
theorem growArray_sameLimits {array : Nat} (count : Nat) (sound : chain.Sound)
    (next : array ≤ chain.arrays.size) :
    (stateLeft (growArray array count chain)).arrayLength = chain.arrayLength ∧
      (stateLeft (growArray array count chain)).elementSize = chain.elementSize := by
  have spec := growArray_spec count sound next
  cases grown : growArray array count chain with
  | error failure left =>
      rw [grown] at spec
      exact ⟨spec.arrayLength_eq, spec.elementSize_eq⟩
  | ok _ after =>
      rw [grown] at spec
      exact ⟨spec.1.arrayLength_eq, spec.1.elementSize_eq⟩

theorem Short.invariant : Store.Invariant (Short : Chain (Flat medium) → Prop) where
  sound short := short.sound
  resize {chain} count short := by
    have sound : LawfulStore.Sound chain := short.sound
    obtain ⟨_, -, becomes⟩ := LawfulStore.resize_becomes sound count
    have limits := resize_keeps
      (fun before after => after.arrayLength = before.arrayLength ∧
        after.elementSize = before.elementSize)
      (fun _ => ⟨rfl, rfl⟩)
      (fun _ _ _ before after => ⟨after.1.trans before.1, after.2.trans before.2⟩)
      (fun _ _ => ⟨rfl, rfl⟩) growArray_sameLimits short.sound count
    refine ⟨becomes.sound, ?_⟩
    have bytes := short.bytes_le
    rw [← limits.1, ← limits.2] at bytes
    exact bytes
  overwrite {chain after index contents} short inside fits written := by
    obtain ⟨other, done, becomes⟩ := LawfulStore.overwrite_inside short.sound inside fits
    rw [written] at done
    cases done
    have same := (overwrite_sameLengths index contents).of_ok written
    exact ⟨becomes.sound, by rw [same.arrayLength_eq, same.elementSize_eq]; exact short.bytes_le⟩
  swap {chain} left right short := by
    have sound : LawfulStore.Sound chain := short.sound
    obtain ⟨_, becomes⟩ := LawfulStore.swap_becomes sound left right
    have same := swap_sameLengths left right chain
    refine ⟨becomes.sound, ?_⟩
    have bytes := short.bytes_le
    rw [← same.arrayLength_eq, ← same.elementSize_eq] at bytes
    exact bytes

theorem Short.of_createBounded {elementSize arrayLength maxArrays : Nat} {system : System}
    (opened : createBounded elementSize arrayLength count maxArrays system = .ok chain) :
    chain.Short := by
  obtain ⟨bytes, length, -, grown⟩ := createBounded_eq_ok opened
  have fits := (Nat.le_div_iff_mul_le bytes).mp (arrayLength_le_of_createBounded opened)
  have unused : (unused elementSize arrayLength maxArrays system : Chain (Flat medium)).Short :=
    ⟨sound_unused maxArrays system bytes length, fits⟩
  have kept := invariant.resize count unused
  rw [show Store.resize count (Chain.unused elementSize arrayLength maxArrays system :
    Chain (Flat medium)) = _ from grown] at kept
  exact kept

theorem elementSize_arrayOrEmpty (sound : chain.Sound) (array : Nat) :
    (chain.arrayOrEmpty array).elementSize = chain.elementSize := by
  unfold arrayOrEmpty
  cases present : chain.arrays[array]? with
  | some store => exact (sound.fits present).elementSize_eq
  | none => rfl

theorem placement_lawful (short : chain.Short) : placement.Lawful chain where
  filled {number block} there := by
    rw [getElem?_blocks] at there
    obtain ⟨store, present, rfl⟩ := Option.map_eq_some_iff.mp there
    have fits := short.sound.fits present
    have sameSize : store.elementSize = chain.elementSize := fits.elementSize_eq
    simp only [placement, arraySize, arrayOrEmpty, present]
    refine ⟨?_, Flat.length_bytes_le fits.sound⟩
    rw [Flat.length_bytes fits.sound, sameSize]
    rfl
  addressable {block} among := by
    obtain ⟨store, member, rfl⟩ := List.mem_map.mp among
    obtain ⟨array, present⟩ := List.mem_iff_getElem?.mp member
    rw [Array.getElem?_toList] at present
    exact Flat.length_bytes_lt (short.sound.fits present).sound
  inside {index} inside := by
    obtain ⟨store, present, storeSound, sameSize, localInside, there⟩ :=
      element_place short.sound inside
    refine ⟨index / chain.arrayLength,
      ⟨index % chain.arrayLength * store.elementSize, store.elementSize⟩, store.bytes,
      store.cell (index % chain.arrayLength), ?_, ?_, ?_, sameSize, there,
      Flat.take_drop_bytes storeSound localInside⟩
    · change chain.place index = _
      rw [place_eq inside present]
      exact except_map_eq_ok_iff.mpr ⟨_, Flat.byteRange_inside storeSound localInside, rfl⟩
    · rw [getElem?_blocks, present, Option.map_some]
    · rw [Flat.bytes, Buffer.length_toBytes]
      exact Flat.place_le storeSound localInside
  apart {index other number number' span span'} different there there' := by
    obtain ⟨array, store, present, range⟩ := place_eq_ok there
    obtain ⟨array', store', present', range'⟩ := place_eq_ok there'
    by_cases sameBlock : number = number'
    · subst sameBlock
      rw [present] at present'
      cases present'
      have otherPlace : index % chain.arrayLength ≠ other % chain.arrayLength :=
        fun samePlace => different (eq_of_same_place (array.symm.trans array') samePlace)
      exact .inr (Flat.byteRange_apart (short.sound.fits present).sound otherPlace range range')
    · exact .inl sameBlock
  written {index offset number kind span after} value hasPlace there done := by
    obtain ⟨rfl, store, present, range⟩ := place_eq_ok there
    have storeSound : store.Sound := (short.sound.fits present).sound
    obtain ⟨localInside, rfl⟩ := Flat.byteRange_eq_ok storeSound range
    refine ⟨store.bytes, ?_, blocks_write short.sound present localInside value hasPlace done⟩
    rw [getElem?_blocks, present, Option.map_some]
  lengthened := lengthened_resize short.sound
  growth {count number} within reached := by
    have sound := short.sound
    have fits := lt_limit_of_le_maxSize within
    have few : chain.target count number ≤ chain.arrayLength := Nat.min_le_left _ _
    have bytes : chain.target count number * chain.elementSize ≤ Store.defaultMaxBytes :=
      Nat.le_trans (Nat.mul_le_mul_right _ few) short.bytes_le
    refine ⟨chain.target count number * chain.elementSize, ?_⟩
    change chain.bytesFor count number = _
    rw [bytesFor, arraysInWords_eq sound.arrayLength_pos fits, except_ok_bind,
      targetInWords_eq sound.arrayLength_pos fits reached, except_ok_bind, Flat.bytesFor,
      elementSize_arrayOrEmpty sound]
    exact Address.check_of_lt (Nat.lt_of_le_of_lt bytes (by decide))

end Chain

/-- Whatever was asked of a store, and whatever the system gave it, typed access to it stays
inside one element, and no two elements share a byte of memory. -/
theorem Store.all_access_stays_inside (medium : Medium) (elementSize count : Nat) :
    (∀ (maxBytes : Nat) (mapper : Mapper) (store : Flat medium), maxBytes < Address.limit →
      Flat.createBounded elementSize count maxBytes mapper = .ok store → ∀ requests,
      TypedAccess (after store requests) ∧ Flat.placement.Lawful (after store requests) ∧
        (after store requests).bytes.length ≤ maxBytes) ∧
    ∀ (arrayLength maxArrays : Nat) (system : System) (chain : Chain (Flat medium)),
      Chain.createBounded elementSize arrayLength count maxArrays system = .ok chain →
      ∀ requests,
      TypedAccess (after chain requests) ∧ Chain.placement.Lawful (after chain requests) := by
  constructor
  · intro maxBytes mapper store bounded opened requests
    obtain ⟨fresh, maxSize_eq⟩ := Flat.createBounded_ok opened
    obtain ⟨_, _, -, becomes⟩ := after_descends fresh.sound requests
    have sound : (after store requests).Sound := becomes.sound
    have bytes :
        (after store requests).maxSize * (after store requests).elementSize ≤ maxBytes := by
      have sameMaximum : (after store requests).maxSize = store.maxSize := becomes.maxSize_eq
      have sameSize : (after store requests).elementSize = elementSize :=
        becomes.elementSize_eq.trans fresh.elementSize_eq
      rw [sameMaximum, sameSize, maxSize_eq]
      exact Nat.div_mul_le_self maxBytes elementSize
    refine ⟨typedAccess_of_sound (Flat.keepsOwnContents medium) sound,
      Flat.placement_lawful sound (Nat.lt_of_le_of_lt bytes bounded), ?_⟩
    rw [Flat.length_bytes sound]
    exact Nat.le_trans (Nat.mul_le_mul_right _ sound.size_le_maxSize) bytes
  · intro arrayLength maxArrays system chain opened requests
    have short := Chain.Short.invariant.after (Chain.Short.of_createBounded opened) requests
    have sound : LawfulStore.Sound (after chain requests) := short.sound
    exact ⟨typedAccess_of_sound (Chain.keepsOwnContents (Flat.keepsOwnContents medium)) sound,
      Chain.placement_lawful short⟩

/-- A store may be bounded by nothing but its machine words.  The last four bytes of an element
can be written, and those from its last three on cannot. -/
theorem Store.heap_access_stays_inside :
    ∃ (store : Heap) (chain : Chain Heap),
      Flat.createBounded 8 3 (Address.limit - 1) = .ok store ∧
      Chain.createBounded 8 2 3 16 = .ok chain ∧
      let requests : List Request := [.operation (.resize 5), .swap 0 4]
      HasPlace (after store requests) 4 .i32 4 ∧ ¬ HasPlace (after store requests) 4 .i32 5 ∧
      TypedAccess (after store requests) ∧ Flat.placement.Lawful (after store requests) ∧
      TypedAccess (after chain requests) ∧ Chain.placement.Lawful (after chain requests) := by
  have opened : ∃ (store : Heap) (chain : Chain Heap),
      Flat.createBounded 8 3 (Address.limit - 1) = .ok store ∧
      Chain.createBounded 8 2 3 16 = .ok chain ∧
      Elements.size (after store [.operation (.resize 5), .swap 0 4]) = 5 ∧
      Elements.elementSize (after store [.operation (.resize 5), .swap 0 4]) = 8 :=
    ⟨_, _, rfl, rfl, rfl, rfl⟩
  obtain ⟨store, chain, storeOpened, chainOpened, size, elementSize⟩ := opened
  have ofStore := (all_access_stays_inside .heap 8 3).1 (Address.limit - 1) _ store (by decide)
    storeOpened [.operation (.resize 5), .swap 0 4]
  have ofChain := (all_access_stays_inside .heap 8 3).2 2 16 _ chain chainOpened
    [.operation (.resize 5), .swap 0 4]
  refine ⟨store, chain, storeOpened, chainOpened, ⟨?_, ?_⟩, ?_, ofStore.1, ofStore.2.1, ofChain.1,
    ofChain.2⟩
  · rw [size]
    decide
  · rw [elementSize]
    decide
  · rintro ⟨-, fits⟩
    rw [elementSize] at fits
    exact absurd fits (by decide)

end RecordPool
