import RecordPool.Proofs.Store.Chain.Elements
import RecordPool.Proofs.Store.Operation
import RecordPool.Proofs.Value

/-!
# Typed access to stores

A value is read from, or written to, the bytes of one element from an offset on.  Where all of
these bytes are inside the element, access succeeds and touches no other byte; everywhere else it
is a fault and touches nothing, so that no write runs over into the element that follows.
-/

namespace RecordPool

namespace Store

open LawfulStore

variable {σ : Type} [Store σ]

/-- There are bytes for a value of a kind from an offset of an element on. -/
def HasPlace (store : σ) (index : Nat) (kind : Kind) (offset : Nat) : Prop :=
  index < Elements.size store ∧ offset + kind.size ≤ Elements.elementSize store

/-- A store with a run of bytes of one element written over. -/
structure Written (index offset : Nat) (image : Bytes) (before after : σ) : Prop where
  size_eq : Elements.size after = Elements.size before
  others_eq : ∀ other, other ≠ index →
    Elements.element after other = Elements.element before other
  element_eq : ∃ contents written : Buffer, Elements.element before index = .ok contents ∧
    Elements.element after index = .ok written ∧ written.size = contents.size ∧
    written.bytesFrom offset image.length = image ∧
    ∀ position, position < offset ∨ offset + image.length ≤ position →
      written.get position = contents.get position

/-- What can be relied on about typed access to a store. -/
structure TypedAccess (store : σ) : Prop where
  element_iff : ∀ {index : Nat},
    (∃ contents, Elements.element store index = .ok contents) ↔ index < Elements.size store
  size_element : ∀ {index : Nat} {contents : Buffer},
    Elements.element store index = .ok contents → contents.size = Elements.elementSize store
  read_iff : ∀ {index : Nat} {kind : Kind} {offset : Nat},
    (∃ value, Elements.read store index kind offset = .ok value) ↔
      HasPlace store index kind offset
  get_iff : ∀ {index : Nat} {kind : Kind} {offset : Nat},
    (∃ value, Cursor.get ⟨store, index⟩ kind offset = .ok value) ↔
      HasPlace store index kind offset
  /-- It is the value of these bytes that is read. -/
  read_eq : ∀ {index : Nat} {kind : Kind} {offset : Nat} {contents : Buffer},
    HasPlace store index kind offset → Elements.element store index = .ok contents →
    Elements.read store index kind offset = kind.decode (contents.bytesFrom offset kind.size)
  write_inside : ∀ {index : Nat} {kind : Kind} {offset : Nat} (value : kind.Carrier),
    HasPlace store index kind offset →
    ∃ after, Elements.write index kind offset value store = .ok () after ∧
      Written index offset (kind.encode value) store after
  write_outside : ∀ {index : Nat} {kind : Kind} {offset : Nat} (value : kind.Carrier),
    ¬ HasPlace store index kind offset →
    ∃ fault, Elements.write index kind offset value store = .error fault store
  put_inside : ∀ {index : Nat} {kind : Kind} {offset : Nat} (value : kind.Carrier),
    HasPlace store index kind offset →
    ∃ after, Cursor.put kind offset value ⟨store, index⟩ = .ok () ⟨after, index⟩ ∧
      Written index offset (kind.encode value) store after
  put_outside : ∀ {index : Nat} {kind : Kind} {offset : Nat} (value : kind.Carrier),
    ¬ HasPlace store index kind offset →
    ∃ fault, Cursor.put kind offset value ⟨store, index⟩ = .error fault ⟨store, index⟩

/-- A cursor writes as its store does, and stays where it is. -/
theorem Cursor.put_apply (store : σ) (index : Nat) (kind : Kind) (offset : Nat)
    (value : kind.Carrier) :
    Cursor.put kind offset value ⟨store, index⟩ =
      match Elements.write index kind offset value store with
      | .ok _ after => .ok () ⟨after, index⟩
      | .error fault left => .error fault ⟨left, index⟩ := by
  unfold Cursor.put Cursor.edit Elements.write
  cases Elements.edit index (Edit.put kind offset value) store <;> rfl

variable [LawfulStore σ] {store : σ} {index offset : Nat} {kind : Kind}

theorem read_of_hasPlace (sound : Sound store) (place : HasPlace store index kind offset) :
    Elements.read store index kind offset =
      kind.decode ((Elements.contents store index).bytesFrom offset kind.size) := by
  have window : (Elements.contents store index).window offset kind.size = .ok _ :=
    Buffer.window_eq_ok_iff.mpr ⟨by rw [size_contents sound]; exact place.2, rfl⟩
  simp only [Elements.read, element_inside sound place.1, except_ok_bind, Record.get, window]

theorem read_of_not_hasPlace (sound : Sound store) (none : ¬ HasPlace store index kind offset) :
    ∃ fault, Elements.read store index kind offset = .error fault := by
  by_cases inside : index < Elements.size store
  · have outside : ¬ offset + kind.size ≤ (Elements.contents store index).size := by
      rw [size_contents sound]
      exact fun fits => none ⟨inside, fits⟩
    refine ⟨.byteRange, ?_⟩
    simp only [Elements.read, element_inside sound inside, except_ok_bind, Record.get,
      Buffer.window, if_neg outside, except_error_bind]
  · refine ⟨.elementOutOfBounds index (Elements.size store), ?_⟩
    simp only [Elements.read, element_outside sound (Nat.le_of_not_lt inside), except_error_bind]

theorem read_iff (sound : Sound store) :
    (∃ value, Elements.read store index kind offset = .ok value) ↔
      HasPlace store index kind offset := by
  constructor
  · rintro ⟨value, done⟩
    by_contra none
    obtain ⟨fault, failed⟩ := read_of_not_hasPlace sound none
    rw [done] at failed
    cases failed
  · intro place
    rw [read_of_hasPlace sound place]
    exact kind.decode_of_length (Buffer.length_bytesFrom _ _ _)

/-- A change of one element to what it is with a run of bytes written over. -/
theorem Written.of_becomes {image : Bytes} {after : σ} (sound : Sound store)
    (inside : index < Elements.size store)
    (fits : offset + image.length ≤ Elements.elementSize store)
    (becomes : Store.Becomes Sound Affords store after (Elements.size store)
      (Function.update (Elements.contents store) index
        ((Elements.contents store index).writeAt offset image))) :
    Written index offset image store after := by
  have read := element_of_becomes becomes
  rw [← size_contents sound index] at fits
  refine ⟨becomes.size_eq, fun other elsewhere => ?_, Elements.contents store index,
    (Elements.contents store index).writeAt offset image, element_inside sound inside, ?_,
    Buffer.size_writeAt _ _ _, Buffer.bytesFrom_writeAt fits, fun position apart => ?_⟩
  · rw [read, Function.update_of_ne elsewhere, LawfulStore.element_eq sound]
  · rw [read, if_pos inside, Function.update_self]
  · rw [Buffer.get_writeAt fits, if_neg (by omega)]

omit [LawfulStore σ] in
theorem HasPlace.length_le (place : HasPlace store index kind offset) (value : kind.Carrier) :
    offset + (kind.encode value).length ≤ Elements.elementSize store := by
  rw [Kind.length_encode]
  exact place.2

/-- Where there is a place for the value, the element is written over once. -/
theorem write_eq_overwrite (sound : Sound store) (value : kind.Carrier)
    (place : HasPlace store index kind offset) :
    Elements.write index kind offset value store =
      Elements.overwrite index
        ((Elements.contents store index).writeAt offset (kind.encode value)) store := by
  have run : (Edit.put kind offset value).run (Elements.contents store index) =
      .ok () ((Elements.contents store index).writeAt offset (kind.encode value)) := by
    simp only [Edit.put, Edit.splice, size_contents sound, if_pos (place.length_le value)]
  simp only [Elements.write, Elements.edit, bind_apply, get_apply, element_inside sound place.1,
    ofExcept_ok_apply, run]
  cases Elements.overwrite index
    ((Elements.contents store index).writeAt offset (kind.encode value)) store <;> rfl

theorem write_of_hasPlace (sound : Sound store) (value : kind.Carrier)
    (place : HasPlace store index kind offset) :
    ∃ after, Elements.write index kind offset value store = .ok () after ∧
      Written index offset (kind.encode value) store after := by
  have sameSize := (Buffer.size_writeAt (Elements.contents store index) offset
    (kind.encode value)).trans (size_contents sound index)
  obtain ⟨after, done, becomes⟩ := overwrite_inside sound place.1 sameSize
  rw [write_eq_overwrite sound value place]
  exact ⟨after, done, Written.of_becomes sound place.1 (place.length_le value) becomes⟩

/-- Stores of a kind are as before when an element is written over with what it holds. -/
def KeepsOwnContents (σ : Type) [Store σ] [LawfulStore σ] : Prop :=
  ∀ (store : σ) (index : Nat), Sound store → index < Elements.size store →
    Elements.overwrite index (Elements.contents store index) store = .ok () store

theorem write_of_not_hasPlace (keeps : KeepsOwnContents σ) (sound : Sound store)
    (value : kind.Carrier) (none : ¬ HasPlace store index kind offset) :
    ∃ fault, Elements.write index kind offset value store = .error fault store := by
  by_cases inside : index < Elements.size store
  · have outside : ¬ offset + (kind.encode value).length ≤ Elements.elementSize store := by
      rw [Kind.length_encode]
      exact fun fits => none ⟨inside, fits⟩
    have run : (Edit.put kind offset value).run (Elements.contents store index) =
        .error .byteRange (Elements.contents store index) := by
      simp only [Edit.put, Edit.splice, size_contents sound, if_neg outside]
    refine ⟨.byteRange, ?_⟩
    simp only [Elements.write, Elements.edit, bind_apply, get_apply, element_inside sound inside,
      ofExcept_ok_apply, run, keeps store index sound inside, throw_apply]
  · exact ⟨_, edit_outside sound (Nat.le_of_not_lt inside) _⟩

/-- Whatever its state, typed access to a store stays inside one element. -/
theorem typedAccess_of_sound (keeps : KeepsOwnContents σ) (sound : Sound store) :
    TypedAccess store where
  element_iff {index} := by
    constructor
    · rintro ⟨contents, there⟩
      by_contra outside
      rw [element_outside sound (Nat.le_of_not_lt outside)] at there
      cases there
    · exact fun inside => ⟨_, element_inside sound inside⟩
  size_element {index contents} there := by
    rw [element_eq sound] at there
    split at there
    · cases there
      exact size_contents sound index
    · cases there
  read_iff := read_iff sound
  get_iff := read_iff sound
  read_eq {index kind offset contents} place there := by
    rw [element_inside sound place.1] at there
    cases there
    exact read_of_hasPlace sound place
  write_inside := write_of_hasPlace sound
  write_outside := write_of_not_hasPlace keeps sound
  put_inside {index kind offset} value place := by
    obtain ⟨after, done, written⟩ := write_of_hasPlace sound value place
    exact ⟨after, by rw [Cursor.put_apply, done], written⟩
  put_outside {index kind offset} value none := by
    obtain ⟨fault, failed⟩ := write_of_not_hasPlace keeps sound value none
    exact ⟨fault, by rw [Cursor.put_apply, failed]⟩

end Store

theorem Flat.withCell_cell {medium : Medium} {store : Flat medium} {index : Nat}
    (sound : store.Sound) (inside : index < store.size) :
    store.withCell index (store.cell index) = store := by
  have blocks : store.block.splice (index * store.elementSize) (store.cell index) =
      store.block := Buffer.splice_slice (place_le sound inside)
  rw [withCell, blocks]

theorem Flat.keepsOwnContents (medium : Medium) : Store.KeepsOwnContents (Flat medium) := by
  intro store index sound inside
  rw [Flat.contents_eq sound]
  change Flat.overwrite index (store.cell index) store = .ok () store
  rw [overwrite_inside_eq sound inside rfl, withCell_cell sound inside]

theorem Chain.withArray_eq_self {σ : Type} {chain : Chain σ} {array : Nat} {store : σ}
    (present : chain.arrays[array]? = some store) : chain.withArray array store = chain := by
  have unchanged : chain.arrays.setIfInBounds array store = chain.arrays := by
    apply Array.ext_getElem?
    intro other
    have there := getElem?_withArray present store other
    simp only [withArray] at there
    rw [there]
    split
    case isTrue here => rw [here, present]
    case isFalse => rfl
  simp only [withArray, unchanged]

theorem Chain.keepsOwnContents {σ : Type} [SubStore σ] [LawfulSubStore σ]
    (ofArrays : Store.KeepsOwnContents σ) : Store.KeepsOwnContents (Chain σ) := by
  intro chain index lawful inside
  have sound : chain.Sound := lawful
  obtain ⟨store, present, localInside⟩ := exists_array sound inside
  have written := ofArrays store _ (sound.fits present).sound localInside
  rw [← contents_of_present sound present] at written
  change Chain.overwrite index _ chain = _
  rw [overwrite_present inside present written, withArray_eq_self present]

end RecordPool
