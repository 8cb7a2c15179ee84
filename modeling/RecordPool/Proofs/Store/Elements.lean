import RecordPool.Proofs.Buffer
import RecordPool.Proofs.Store.Contract

/-!
# What follows for reads, edits and copies

Typed access, edits and copies are written once for all arrays of elements.  Here it is
derived from the contract of stores what they do to the elements there are, and that they
do nothing but report elements that are not there.
-/

namespace RecordPool

/-- A store of the same elements. -/
structure Store.SameElements {σ : Type} [Store σ] (before after : σ) : Prop where
  size_eq : Elements.size after = Elements.size before
  element_eq : ∀ index, Elements.element after index = Elements.element before index

namespace LawfulStore

variable {σ α : Type} [Store σ] [LawfulStore σ] {store : σ} {index : Nat}

theorem element_inside (sound : Sound store) (inside : index < Elements.size store) :
    Elements.element store index = .ok (Elements.contents store index) := by
  rw [element_eq sound, if_pos inside]

theorem element_outside (sound : Sound store) (outside : Elements.size store ≤ index) :
    Elements.element store index =
      .error (.elementOutOfBounds index (Elements.size store)) := by
  rw [element_eq sound, if_neg (Nat.not_lt.mpr outside)]

/-- What is not there counts as zero. -/
theorem contents_outside (sound : Sound store) (outside : Elements.size store ≤ index) :
    Elements.contents store index = Buffer.zeros (Elements.elementSize store) := by
  unfold Elements.contents
  rw [element_outside sound outside]

/-- What can be read of a store after a change. -/
theorem element_of_becomes {after : σ} {size : Nat} {contents : Nat → Buffer}
    (becomes : Store.Becomes Sound Affords store after size contents) (index : Nat) :
    Elements.element after index =
      if index < size then .ok (contents index) else .error (.elementOutOfBounds index size) := by
  rw [element_eq becomes.sound, becomes.size_eq, becomes.contents_eq]

/-- Changes of one store to the same contents leave the same elements. -/
theorem sameElements_of_becomes {first second : σ} {size : Nat} {contents : Nat → Buffer}
    (before : Store.Becomes Sound Affords store first size contents)
    (after : Store.Becomes Sound Affords store second size contents) :
    Store.SameElements first second where
  size_eq := after.size_eq.trans before.size_eq.symm
  element_eq index :=
    (element_of_becomes after index).trans (element_of_becomes before index).symm

/-- A store becomes itself. -/
theorem becomes_self (sound : Sound store) :
    Store.Becomes Sound Affords store store (Elements.size store)
      (Elements.contents store) where
  sound := sound
  elementSize_eq := rfl
  maxSize_eq := rfl
  affords_iff _ := Iff.rfl
  size_eq := rfl
  contents_eq _ := rfl

/-- Whether it is refused or not, growth keeps all contents and loses no element. -/
theorem resize_becomes (sound : Sound store) (count : Nat) :
    ∃ size, Elements.size store ≤ size ∧
      Store.Becomes Sound Affords store (stateLeft (Store.resize count store)) size
        (Elements.contents store) := by
  cases resized : Store.resize count store with
  | ok _ grown => exact ⟨_, Nat.le_max_left _ _, resize_ok sound resized⟩
  | error failure left => exact ⟨_, Nat.le_refl _, resize_error sound resized⟩

/-- An edit of an element ends as it ends on the contents, and what it leaves of them is
what the element holds then. -/
theorem edit_inside (sound : Sound store) (inside : index < Elements.size store)
    (edit : Edit α) :
    ∃ after, Elements.edit index edit store =
        withState after (edit.run (Elements.contents store index)) ∧
      Store.Becomes Sound Affords store after (Elements.size store)
        (Function.update (Elements.contents store) index
          (contentsLeft (edit.run (Elements.contents store index)))) := by
  have kept := edit.size_run (Elements.contents store index)
  obtain ⟨after, written, becomes⟩ :=
    overwrite_inside sound inside (kept.trans (size_contents sound index))
  refine ⟨after, ?_, becomes⟩
  simp only [Elements.edit, bind_apply, get_apply, element_inside sound inside,
    ofExcept_ok_apply]
  cases outcome : edit.run (Elements.contents store index) with
  | ok value left =>
      rw [outcome] at written
      simp only [contentsLeft] at written
      simp only [bind_apply, written, pure_apply, withState]
  | error fault left =>
      rw [outcome] at written
      simp only [contentsLeft] at written
      simp only [bind_apply, written, throw_apply, withState]

theorem edit_outside (sound : Sound store) (outside : Elements.size store ≤ index)
    (edit : Edit α) :
    Elements.edit index edit store =
      .error (.elementOutOfBounds index (Elements.size store)) store := by
  simp only [Elements.edit, bind_apply, get_apply, element_outside sound outside,
    ofExcept_error_apply]

/-- Whatever its outcome, an edit changes at most the contents. -/
theorem edit_becomes (sound : Sound store) (index : Nat) (edit : Edit α) :
    ∃ contents, Store.Becomes Sound Affords store (stateLeft (Elements.edit index edit store))
      (Elements.size store) contents := by
  by_cases inside : index < Elements.size store
  · obtain ⟨after, done, becomes⟩ := edit_inside sound inside edit
    refine ⟨Function.update (Elements.contents store) index
      (contentsLeft (edit.run (Elements.contents store index))), ?_⟩
    rw [done, stateLeft_withState]
    exact becomes
  · rw [edit_outside sound (Nat.le_of_not_lt inside)]
    exact ⟨_, becomes_self sound⟩

omit [LawfulStore σ] in
theorem copy_self (source : Nat) : Elements.copy source source store = .ok () store := by
  simp only [Elements.copy, if_true, pure_apply]

theorem copy_source_outside {source target : Nat} (sound : Sound store)
    (different : source ≠ target) (outside : Elements.size store ≤ source) :
    Elements.copy source target store =
      .error (.elementOutOfBounds source (Elements.size store)) store := by
  simp only [Elements.copy, if_neg different, bind_apply, get_apply,
    element_outside sound outside, ofExcept_error_apply]

theorem copy_target_outside {source target : Nat} (sound : Sound store)
    (different : source ≠ target) (inside : source < Elements.size store)
    (outside : Elements.size store ≤ target) :
    Elements.copy source target store =
      .error (.elementOutOfBounds target (Elements.size store)) store := by
  simp only [Elements.copy, if_neg different, bind_apply, get_apply,
    element_inside sound inside, ofExcept_ok_apply, overwrite_outside sound outside]

theorem copy_inside {source target : Nat} (sound : Sound store) (different : source ≠ target)
    (sourceInside : source < Elements.size store)
    (targetInside : target < Elements.size store) :
    ∃ after, Elements.copy source target store = .ok () after ∧
      Store.Becomes Sound Affords store after (Elements.size store)
        (Function.update (Elements.contents store) target
          (Elements.contents store source)) := by
  obtain ⟨after, done, becomes⟩ :=
    overwrite_inside sound targetInside (size_contents sound source)
  refine ⟨after, ?_, becomes⟩
  simp only [Elements.copy, if_neg different, bind_apply, get_apply,
    element_inside sound sourceInside, ofExcept_ok_apply, done]

/-- Elements that are there are exchanged, also an element with itself. -/
theorem exchange_inside (sound : Sound store) {left right : Nat}
    (leftInside : left < Elements.size store) (rightInside : right < Elements.size store) :
    ∃ after, Store.swap left right store = .ok () after ∧
      Store.Becomes Sound Affords store after (Elements.size store)
        (Elements.contents store ∘ Equiv.swap left right) := by
  by_cases same : left = right
  · rw [same, Equiv.swap_self]
    exact ⟨store, swap_self, becomes_self sound⟩
  · exact swap_inside sound same leftInside rightInside

/-- Whatever its outcome, an exchange changes at most the contents. -/
theorem swap_becomes (sound : Sound store) (left right : Nat) :
    ∃ contents, Store.Becomes Sound Affords store (stateLeft (Store.swap left right store))
      (Elements.size store) contents := by
  by_cases same : left = right
  · rw [same, swap_self]
    exact ⟨_, becomes_self sound⟩
  · by_cases inside : left < Elements.size store ∧ right < Elements.size store
    · rcases swap_inside sound same inside.1 inside.2 with ⟨after, done, becomes⟩
      rw [done]
      exact ⟨_, becomes⟩
    · rcases swap_outside sound same inside with ⟨fault, done⟩
      rw [done]
      exact ⟨_, becomes_self sound⟩

end LawfulStore

end RecordPool
