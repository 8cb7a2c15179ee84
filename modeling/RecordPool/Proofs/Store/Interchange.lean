import RecordPool.Proofs.Store.Backend
import RecordPool.Proofs.Store.FlatList

/-!
# Stores are interchangeable

A flat list of byte strings is all there is to a store: for every run of operations the
store answers what the list answers, and shows the contents that the list has.  Stores of
different kinds therefore answer alike, as long as they are of the same size at first and
may grow to the same size.

That memory is given is asked of the operations that grow the store, and of nothing else.
-/

namespace RecordPool.Store

namespace FlatList

variable {σ : Type} [Store σ]

/-- The strings of a store of the given contents. -/
def strings (size : Nat) (contents : Nat → Buffer) : List Bytes :=
  (List.range size).map fun index => (contents index).toBytes

/-- What a store is and where the cursor stands, as a list. -/
def ofCursor (cursor : Cursor σ) : FlatList where
  elementSize := Elements.elementSize cursor.store
  maxSize := Store.maxSize cursor.store
  elements := strings (Elements.size cursor.store) (Elements.contents cursor.store)
  position := cursor.index

@[simp]
theorem length_strings (size : Nat) (contents : Nat → Buffer) :
    (strings size contents).length = size := by
  rw [strings, List.length_map, List.length_range]

theorem getElem?_strings (size : Nat) (contents : Nat → Buffer) (index : Nat) :
    (strings size contents)[index]? =
      if index < size then some (contents index).toBytes else none := by
  rw [strings, List.getElem?_map]
  by_cases inside : index < size
  · rw [if_pos inside, List.getElem?_range inside]
    rfl
  · rw [if_neg inside, List.getElem?_eq_none (by rw [List.length_range]; omega)]
    rfl

/-- A change of one element is a change of one string. -/
theorem strings_update {size index : Nat} (inside : index < size) (contents : Nat → Buffer)
    (buffer : Buffer) :
    strings size (Function.update contents index buffer) =
      (strings size contents).set index buffer.toBytes := by
  apply List.ext_getElem?
  intro other
  rw [getElem?_strings, List.getElem?_set, getElem?_strings, length_strings]
  by_cases here : index = other
  · subst here
    rw [if_pos inside, if_pos rfl, if_pos inside, Function.update_self]
  · rw [if_neg here, Function.update_of_ne (Ne.symm here)]

/-- Growth puts zeros after the strings there are. -/
theorem strings_grown {size count elementSize : Nat} {contents : Nat → Buffer}
    (larger : size ≤ count)
    (blank : ∀ index, size ≤ index → contents index = Buffer.zeros elementSize) :
    strings count contents =
      strings size contents ++ List.replicate (count - size) (List.replicate elementSize 0) := by
  apply List.ext_getElem?
  intro index
  rw [getElem?_strings, List.getElem?_append, length_strings, getElem?_strings,
    List.getElem?_replicate]
  by_cases old : index < size
  · rw [if_pos (by omega), if_pos old, if_pos old]
  · by_cases new : index < count
    · rw [if_pos new, if_neg old, if_pos (by omega), blank index (Nat.le_of_not_lt old),
        Buffer.toBytes_zeros]
    · rw [if_neg new, if_neg old, if_neg (by omega)]

/-! ## One operation -/

/-- A change of a string does to the bytes of a record what an edit does. -/
def Mirrors (change : Bytes → Except Fault Bytes) (edit : Edit Unit) : Prop :=
  ∀ buffer : Buffer,
    match edit.run buffer with
    | .ok _ left => change buffer.toBytes = .ok left.toBytes
    | .error fault left => change buffer.toBytes = .error fault ∧ left = buffer

theorem mirrors_splice (start : Nat) (replacement : Bytes) :
    Mirrors (splice start replacement) (Edit.splice start replacement) := by
  intro buffer
  simp only [Edit.splice, splice, Buffer.length_toBytes]
  by_cases inside : start + replacement.length ≤ buffer.size
  · simp only [if_pos inside, Buffer.toBytes_writeAt inside]
  · simp only [if_neg inside, true_and]

theorem mirrors_fill (replacement : Bytes) :
    Mirrors (replace replacement) (Edit.fill replacement) := by
  intro buffer
  simp only [Edit.fill, Edit.contents, Bind.bind, Edit.bind, replace, Buffer.length_toBytes]
  by_cases whole : replacement.length = buffer.size
  · have inside : 0 + replacement.length ≤ buffer.size := by omega
    have rest : buffer.toBytes.drop (0 + replacement.length) = [] := by
      apply List.drop_eq_nil_of_le
      rw [Buffer.length_toBytes]
      omega
    simp only [if_pos whole, Edit.splice, if_pos inside, Buffer.toBytes_writeAt inside, rest,
      List.take_zero, List.nil_append, List.append_nil]
  · simp only [if_neg whole, Edit.fault, true_and]

theorem window_toBytes (offset count : Nat) (buffer : Buffer) :
    window offset count buffer.toBytes = buffer.window offset count := by
  unfold window Buffer.window
  rw [Buffer.length_toBytes]
  by_cases inside : offset + count ≤ buffer.size
  · rw [if_pos inside, if_pos inside, Buffer.bytesFrom_eq_toBytes inside]
  · rw [if_neg inside, if_neg inside]

open LawfulStore

variable [LawfulStore σ] {cursor : Cursor σ} {index : Nat}

/-- What the store becomes, the strings become. -/
theorem ofCursor_becomes {after : σ} {size : Nat} {contents : Nat → Buffer}
    (becomes : Store.Becomes Sound Affords cursor.store after size contents) :
    ofCursor { cursor with store := after } =
      { ofCursor cursor with elements := strings size contents } := by
  simp only [ofCursor, becomes.elementSize_eq, becomes.maxSize_eq, becomes.size_eq,
    funext becomes.contents_eq]

omit [LawfulStore σ] in
theorem element_inside (inside : index < Elements.size cursor.store) :
    (ofCursor cursor).element index = .ok (Elements.contents cursor.store index).toBytes := by
  simp only [element, ofCursor, getElem?_strings, if_pos inside]

omit [LawfulStore σ] in
theorem element_outside (outside : Elements.size cursor.store ≤ index) :
    (ofCursor cursor).element index =
      .error (.elementOutOfBounds index (Elements.size cursor.store)) := by
  simp only [element, ofCursor, getElem?_strings, if_neg (Nat.not_lt.mpr outside),
    length_strings]

theorem element_ofCursor (sound : Sound cursor.store) (index : Nat) :
    (ofCursor cursor).element index =
      Buffer.toBytes <$> Elements.element cursor.store index := by
  by_cases inside : index < Elements.size cursor.store
  · rw [element_inside inside, LawfulStore.element_inside sound inside]
    rfl
  · rw [element_outside (Nat.le_of_not_lt inside),
      LawfulStore.element_outside sound (Nat.le_of_not_lt inside)]
    rfl

theorem read_ofCursor (sound : Sound cursor.store) (index : Nat) (kind : Kind)
    (offset : Nat) :
    (ofCursor cursor).read index kind offset =
      Elements.read cursor.store index kind offset := by
  unfold read Elements.read Record.get
  rw [element_ofCursor sound]
  cases Elements.element cursor.store index with
  | error fault => rfl
  | ok contents =>
      simp only [Functor.map, Except.map, except_ok_bind, window_toBytes]

/-- A change of a string mirrors the edit of an element. -/
theorem update_ofCursor (sound : Sound cursor.store) {change : Bytes → Except Fault Bytes}
    {edit : Edit Unit} (mirrors : Mirrors change edit) (index : Nat) :
    (ofCursor cursor).update index change =
      ((Cursor.changed .fault (Cursor.onStore (Elements.edit index edit) cursor)).1,
        ofCursor (stateLeft (Cursor.onStore (Elements.edit index edit) cursor))) := by
  by_cases inside : index < Elements.size cursor.store
  · obtain ⟨after, done, becomes⟩ := edit_inside sound inside edit
    have mirrored := mirrors (Elements.contents cursor.store index)
    simp only [update, element_inside inside, except_ok_bind, Cursor.onStore, focus, done]
    cases outcome : edit.run (Elements.contents cursor.store index) with
    | ok value left =>
        rw [outcome] at mirrored becomes
        simp only [withState, mirrored, Cursor.changed, stateLeft_ok, ofCursor_becomes becomes,
          contentsLeft, strings_update inside]
        rfl
    | error fault left =>
        rw [outcome] at mirrored becomes
        simp only [contentsLeft, mirrored.2, Function.update_eq_self] at becomes
        simp only [withState, mirrored.1, Cursor.changed, stateLeft_error,
          ofCursor_becomes becomes]
        rfl
  · have outside := Nat.le_of_not_lt inside
    simp only [update, element_outside outside, except_error_bind, Cursor.onStore, focus,
      edit_outside sound outside, Cursor.changed, stateLeft_error]

theorem resize_ofCursor (sound : Sound cursor.store) {count : Nat}
    (memory : count ≤ Store.maxSize cursor.store → Affords cursor.store count) :
    (ofCursor cursor).resize count =
      ((Cursor.changed id (Cursor.onStore (Store.resize count) cursor)).1,
        ofCursor (stateLeft (Cursor.onStore (Store.resize count) cursor))) := by
  have size : (ofCursor cursor).elements.length = Elements.size cursor.store :=
    length_strings _ _
  unfold resize
  rw [size]
  by_cases within : count ≤ Elements.size cursor.store
  · rw [if_pos within]
    simp only [Cursor.onStore, focus, resize_within sound within, Cursor.changed, stateLeft_ok]
  · rw [if_neg within]
    by_cases beyond : Store.maxSize cursor.store < count
    · simp only [Cursor.onStore, focus, resize_beyond sound beyond, Cursor.changed,
        stateLeft_error, id]
      exact if_pos beyond
    · have bounded := Nat.le_of_not_lt beyond
      obtain ⟨grown, done⟩ := resize_affordable sound bounded (memory bounded)
      have becomes := resize_ok sound done
      rw [Nat.max_eq_right (Nat.le_of_not_le within)] at becomes
      have zeros := strings_grown (Nat.le_of_not_le within)
        (fun index past => contents_outside sound past)
      simp only [Cursor.onStore, focus, done, Cursor.changed, stateLeft_ok,
        ofCursor_becomes becomes, zeros]
      exact if_neg beyond

theorem copy_ofCursor (sound : Sound cursor.store) {source target : Nat}
    (different : source ≠ target) :
    (ofCursor cursor).updateFrom target ((ofCursor cursor).element source)
        (fun bytes _ => .ok bytes) =
      ((Cursor.changed .fault (Cursor.onStore (Elements.copy source target) cursor)).1,
        ofCursor (stateLeft (Cursor.onStore (Elements.copy source target) cursor))) := by
  by_cases sourceInside : source < Elements.size cursor.store
  · by_cases targetInside : target < Elements.size cursor.store
    · obtain ⟨after, done, becomes⟩ := copy_inside sound different sourceInside targetInside
      simp only [updateFrom, update, element_inside sourceInside, element_inside targetInside,
        except_ok_bind, Cursor.onStore, focus, done, Cursor.changed, stateLeft_ok,
        ofCursor_becomes becomes, strings_update targetInside]
      rfl
    · have targetOutside := Nat.le_of_not_lt targetInside
      simp only [updateFrom, update, element_inside sourceInside, element_outside targetOutside,
        except_error_bind, Cursor.onStore, focus,
        copy_target_outside sound different sourceInside targetOutside, Cursor.changed,
        stateLeft_error]
  · have sourceOutside := Nat.le_of_not_lt sourceInside
    simp only [updateFrom, element_outside sourceOutside, Cursor.onStore, focus,
      copy_source_outside sound different sourceOutside, Cursor.changed, stateLeft_error]

theorem copyRange_ofCursor (sound : Sound cursor.store) {source offset count : Nat}
    (different : source ≠ cursor.index) :
    (ofCursor cursor).updateFrom cursor.index
        ((ofCursor cursor).element source >>= window offset count) (splice offset) =
      ((Cursor.changed .fault (Cursor.copyRange source offset count cursor)).1,
        ofCursor (stateLeft (Cursor.copyRange source offset count cursor))) := by
  rw [element_ofCursor sound]
  simp only [Cursor.copyRange, bind_apply, get_apply, if_neg different]
  cases Elements.element cursor.store source with
  | error fault => rfl
  | ok contents =>
      simp only [Functor.map, Except.map, except_ok_bind, window_toBytes, ofExcept_ok_apply]
      cases contents.window offset count with
      | error fault => rfl
      | ok run =>
          simp only [ofExcept_ok_apply, Cursor.edit_apply]
          exact update_ofCursor sound (mirrors_splice offset run) cursor.index

/-- What the list that a store is does, the store does. -/
theorem step_ofCursor (sound : Sound cursor.store) (operation : Operation)
    (memory : ∀ count, operation = .resize count → count ≤ Store.maxSize cursor.store →
      Affords cursor.store count) :
    (ofCursor cursor).step operation =
      ((cursor.step operation).1, ofCursor (cursor.step operation).2) := by
  cases operation with
  | resize count =>
      rw [Cursor.step, Cursor.snd_changed]
      exact resize_ofCursor sound (memory count rfl)
  | size => simp only [step, Cursor.step, ofCursor, length_strings]
  | element index => simp only [step, Cursor.step, element_ofCursor sound]
  | read index kind offset => simp only [step, Cursor.step, read_ofCursor sound]
  | write index kind offset value =>
      rw [Cursor.step, Cursor.snd_changed]
      exact update_ofCursor sound (mirrors_splice offset (kind.encode value)) index
  | fill index bytes =>
      rw [Cursor.step, Cursor.snd_changed]
      exact update_ofCursor sound (mirrors_fill bytes) index
  | copy source target =>
      rw [Cursor.step, Cursor.snd_changed, step]
      by_cases same : source = target
      · rw [if_pos same, same]
        simp only [Cursor.onStore, focus, copy_self, Cursor.changed, stateLeft_ok]
      · rw [if_neg same]
        exact copy_ofCursor sound same
  | start => rfl
  | moveTo index => rfl
  | contents =>
      rw [Cursor.step, Cursor.contents, ← element_ofCursor sound]
      rfl
  | get kind offset =>
      rw [Cursor.step, Cursor.get, ← read_ofCursor sound]
      rfl
  | put kind offset value =>
      rw [Cursor.step, Cursor.snd_changed, Cursor.put, Cursor.edit_apply]
      exact update_ofCursor sound (mirrors_splice offset (kind.encode value)) cursor.index
  | copyRange source offset count =>
      rw [Cursor.step, Cursor.snd_changed, step]
      by_cases same : source = cursor.index
      · have standing : source = (ofCursor cursor).position := same
        simp only [if_pos standing, Cursor.copyRange, bind_apply, get_apply, if_pos same]
        rfl
      · have elsewhere : ¬ source = (ofCursor cursor).position := same
        rw [if_neg elsewhere]
        exact copyRange_ofCursor sound same

/-! ## Runs of operations -/

/-- What the list that a store is does in a run, the store does. -/
theorem run_ofCursor (sound : Sound cursor.store) (operations : List Operation)
    (memory : ∀ count, .resize count ∈ operations → count ≤ Store.maxSize cursor.store →
      Affords cursor.store count) :
    (ofCursor cursor).run operations =
      ((cursor.run operations).1, ofCursor (cursor.run operations).2) := by
  induction operations generalizing cursor with
  | nil => rfl
  | cons operation rest ih =>
      have stepMemory : ∀ count, operation = .resize count →
          count ≤ Store.maxSize cursor.store → Affords cursor.store count := by
        rintro count rfl within
        exact memory count List.mem_cons_self within
      obtain ⟨size, contents, -, becomes⟩ := Cursor.step_becomes sound operation
      have restMemory : ∀ count, .resize count ∈ rest →
          count ≤ Store.maxSize (cursor.step operation).2.store →
          Affords (cursor.step operation).2.store count := by
        intro count later within
        rw [becomes.maxSize_eq] at within
        rw [becomes.affords_iff]
        exact memory count (List.mem_cons_of_mem operation later) within
      have first := step_ofCursor sound operation stepMemory
      have others := ih becomes.sound restMemory
      simp only [run, Cursor.run, first, others]

/-- A store just opened is the list just made. -/
theorem ofCursor_start {elementSize size : Nat} {store : σ}
    (opened : Fresh elementSize size store) :
    ofCursor (Cursor.start store) = fresh elementSize (Store.maxSize store) size := by
  have zeros : strings size (Elements.contents store) =
      List.replicate size (List.replicate elementSize 0) := by
    apply List.ext_getElem?
    intro index
    rw [getElem?_strings, List.getElem?_replicate, opened.contents_eq, Buffer.toBytes_zeros]
  simp only [ofCursor, Cursor.start, fresh, opened.elementSize_eq, opened.size_eq, zeros]

end FlatList

section Lists

variable {σ : Type} [Store σ] [LawfulStore σ]

open LawfulStore

/-- What a store keeps in an operation: its elements are none the fewer, an operation that
fails changes nothing, and growth keeps the elements there are and adds zeros. -/
structure Keeps (before : Cursor σ) (operation : Operation) : Prop where
  size_le : Elements.size before.store ≤ Elements.size (before.step operation).2.store
  unchanged_of_error : ∀ failure, (before.step operation).1 = .error failure →
    FlatList.ofCursor (before.step operation).2 = FlatList.ofCursor before
  element_of_resize : ∀ count, operation = .resize count →
    ∀ index, index < Elements.size (before.step operation).2.store →
      Elements.element (before.step operation).2.store index =
        if index < Elements.size before.store then
          Elements.element before.store index
        else
          .ok (Buffer.zeros (Elements.elementSize before.store))

/-- A store of elements of a size, some number of them at first, answers every run of
operations as a flat list does, as long as there is memory for its growth. -/
def AnswersAsList (elementSize size : Nat) (store : σ) : Prop :=
  ∀ operations : List Operation,
    (∀ count, .resize count ∈ operations → count ≤ Store.maxSize store →
      Affords store count) →
    (FlatList.fresh elementSize (Store.maxSize store) size).run operations =
        (((Cursor.start store).run operations).1,
          FlatList.ofCursor ((Cursor.start store).run operations).2) ∧
      ∀ operation, Keeps ((Cursor.start store).run operations).2 operation

theorem keeps {before : Cursor σ} (sound : Sound before.store) (operation : Operation) :
    Keeps before operation where
  size_le := by
    obtain ⟨size, contents, larger, becomes⟩ := Cursor.step_becomes sound operation
    rw [becomes.size_eq]
    exact larger
  unchanged_of_error failure failed := by
    by_cases grows : ∃ count, operation = .resize count
    · obtain ⟨count, rfl⟩ := grows
      rw [Cursor.step, Cursor.snd_changed]
      cases resized : Store.resize count before.store with
      | ok _ grown =>
          simp only [Cursor.step, Cursor.onStore, focus, resized, Cursor.changed] at failed
          cases failed
      | error failure left =>
          simp only [Cursor.onStore, focus, resized, stateLeft_error,
            FlatList.ofCursor_becomes (resize_error sound resized)]
          rfl
    · have alike := FlatList.step_ofCursor sound operation
        (fun count same => absurd ⟨count, same⟩ grows)
      have listFailed : ((FlatList.ofCursor before).step operation).1 = .error failure := by
        rw [alike]
        exact failed
      have kept := FlatList.step_eq_self_of_error _ _ listFailed
      rw [alike] at kept
      exact kept
  element_of_resize count grows index inside := by
    subst grows
    obtain ⟨size, -, becomes⟩ := resize_becomes sound count
    have after : (before.step (.resize count)).2.store =
        stateLeft (Store.resize count before.store) := by
      rw [Cursor.step, Cursor.snd_changed, Cursor.store_stateLeft_onStore]
    rw [after] at inside ⊢
    rw [element_inside becomes.sound inside, becomes.contents_eq]
    by_cases old : index < Elements.size before.store
    · rw [if_pos old, element_inside sound old]
    · rw [if_neg old, contents_outside sound (Nat.le_of_not_lt old)]

/-- Stores just opened answer as lists. -/
theorem Fresh.answersAsList {elementSize size : Nat} {store : σ}
    (opened : Fresh elementSize size store) : AnswersAsList elementSize size store := by
  intro operations memory
  have sound : Sound (Cursor.start store).store := opened.sound
  obtain ⟨_, _, _, becomes⟩ := Cursor.run_becomes sound operations
  refine ⟨?_, keeps becomes.sound⟩
  rw [← FlatList.ofCursor_start opened]
  exact FlatList.run_ofCursor opened.sound operations memory

end Lists

/-- Stores of all kinds are interchangeable: whatever their bounds and sub-arrays, they
answer as the list that has their element size, their size and their greatest size. -/
theorem all_answer_as_lists (elementSize size : Nat) :
    OfEveryKind elementSize size fun _ _ _ store => AnswersAsList elementSize size store :=
  ofEveryKind fun _ _ _ _ fresh => fresh.answersAsList

/-- A heap of two elements of four bytes is such a store. -/
theorem heap_answers_as_list :
    ∃ store : Heap, Flat.createBounded 4 2 64 = .ok store ∧ AnswersAsList 4 2 store := by
  rcases (Flat.exists_createBounded (by decide) (by decide) (Medium.gives_heap (by decide)) :
    ∃ store : Heap, Flat.createBounded 4 2 64 = .ok store) with ⟨store, opened⟩
  exact ⟨store, opened, (all_answer_as_lists 4 2).1 64 _ store opened⟩

end RecordPool.Store
