import RecordPool.Proofs.Store.Backend
import RecordPool.Proofs.Store.Operation

/-!
# Exchanges

Stores exchange two elements in ways of their own: inside one block, inside one sub-array, or
between two sub-arrays.  All of them leave the store as the plain exchange by way of a scratch
copy leaves it.  For indices out of range they may report another one of the two, but nothing is
changed then.
-/

namespace RecordPool

open LawfulStore

namespace LawfulStore

variable {σ : Type} [Store σ] [LawfulStore σ] {store : σ} {left right : Nat}

omit [LawfulStore σ] in
theorem swapByCopy_self (index : Nat) : Elements.swapByCopy index index store = .ok () store := by
  simp only [Elements.swapByCopy, if_true, pure_apply]

/-- An exchange by way of a scratch copy is two writes. -/
theorem swapByCopy_inside (sound : Sound store) (different : left ≠ right)
    (leftInside : left < Elements.size store) (rightInside : right < Elements.size store) :
    Elements.swapByCopy left right store =
      (Elements.overwrite left (Elements.contents store right) >>= fun _ =>
        Elements.overwrite right (Elements.contents store left)) store := by
  simp only [Elements.swapByCopy, Elements.copy, if_neg different, if_neg different.symm,
    bind_apply, get_apply, element_inside sound leftInside, element_inside sound rightInside,
    ofExcept_ok_apply]

theorem swapByCopy_outside (sound : Sound store) (different : left ≠ right)
    (outside : ¬ (left < Elements.size store ∧ right < Elements.size store)) :
    ∃ fault, Elements.swapByCopy left right store = .error fault store := by
  by_cases leftInside : left < Elements.size store
  · have rightOutside : Elements.size store ≤ right := by omega
    have copied := copy_source_outside sound different.symm rightOutside
    refine ⟨.elementOutOfBounds right (Elements.size store), ?_⟩
    simp only [Elements.swapByCopy, if_neg different, bind_apply, get_apply,
      element_inside sound leftInside, ofExcept_ok_apply, copied]
  · have leftOutside := Nat.le_of_not_lt leftInside
    refine ⟨.elementOutOfBounds left (Elements.size store), ?_⟩
    simp only [Elements.swapByCopy, if_neg different, bind_apply, get_apply,
      element_outside sound leftOutside, ofExcept_error_apply]

end LawfulStore

/-- Stores of a kind exchange elements that are there as by way of a scratch copy. -/
def Store.SwapByCopy (σ : Type) [Store σ] [LawfulStore σ] : Prop :=
  ∀ (store : σ) (left right : Nat), Sound store → left ≠ right →
    left < Elements.size store → right < Elements.size store →
    Store.swap left right store = Elements.swapByCopy left right store

theorem Flat.swapByCopy (medium : Medium) : Store.SwapByCopy (Flat medium) := by
  intro store left right sound different leftInside rightInside
  cases medium with
  | heap =>
      exact (Flat.exchange_inside sound different leftInside rightInside).trans
        (Flat.swapByCopy_inside sound different leftInside rightInside).symm
  | mapped => rfl

section Chains

variable {σ : Type} [SubStore σ]

/-- Two writes in one sub-array are two writes of the chain. -/
theorem Chain.overwrite_same_array {chain : Chain σ} {store second : σ} {left right : Nat}
    {leftContents rightContents : Buffer} (leftInside : left < chain.size)
    (rightInside : right < chain.size)
    (sameArray : left / chain.arrayLength = right / chain.arrayLength)
    (present : chain.arrays[left / chain.arrayLength]? = some store)
    (written : (Elements.overwrite (left % chain.arrayLength) leftContents >>= fun _ =>
      Elements.overwrite (right % chain.arrayLength) rightContents) store = .ok () second) :
    (Chain.overwrite left leftContents >>= fun _ => Chain.overwrite right rightContents) chain =
      .ok () (chain.withArray (left / chain.arrayLength) second) := by
  obtain ⟨_, first, writeLeft, writeRight⟩ := bind_eq_ok_iff.mp written
  have between := getElem?_withArray present first (right / chain.arrayLength)
  rw [if_pos sameArray.symm] at between
  calc (Chain.overwrite left leftContents >>= fun _ => Chain.overwrite right rightContents) chain
      = Chain.overwrite right rightContents
          (chain.withArray (left / chain.arrayLength) first) := by
        rw [bind_apply, overwrite_present leftInside present writeLeft]
    _ = .ok () ((chain.withArray (left / chain.arrayLength) first).withArray
          (right / chain.arrayLength) second) :=
        overwrite_present rightInside between writeRight
    _ = .ok () (chain.withArray (left / chain.arrayLength) second) := by
        rw [← sameArray, withArray_withArray]

theorem Chain.swapByCopy [LawfulSubStore σ] (ofArrays : Store.SwapByCopy σ) :
    Store.SwapByCopy (Chain σ) := by
  intro chain left right lawful different leftInside rightInside
  have sound : chain.Sound := lawful
  rw [swapByCopy_inside lawful different leftInside rightInside]
  by_cases sameArray : left / chain.arrayLength = right / chain.arrayLength
  · obtain ⟨store, present, leftLocal⟩ := exists_array sound leftInside
    obtain ⟨store', present', rightLocal⟩ := exists_array sound rightInside
    rw [← sameArray, present] at present'
    obtain rfl := Option.some.inj present'
    have storeSound := (sound.fits present).sound
    have otherPlace : left % chain.arrayLength ≠ right % chain.arrayLength :=
      fun samePlace => different (eq_of_same_place sameArray samePlace)
    obtain ⟨after, done, -⟩ :=
      LawfulStore.swap_inside storeSound otherPlace leftLocal rightLocal
    have written := done
    rw [ofArrays store _ _ storeSound otherPlace leftLocal rightLocal,
      swapByCopy_inside storeSound otherPlace leftLocal rightLocal,
      ← contents_of_present sound present, ← contents_of_present sound (sameArray ▸ present)]
      at written
    exact ((swap_same_array different leftInside rightInside sameArray).trans
      (onArray_present present done)).trans
      (overwrite_same_array leftInside rightInside sameArray present written).symm
  · exact swap_two_arrays sound leftInside rightInside sameArray

end Chains

/-- Two computations one after the other do to a backend what they do to the store in it. -/
theorem Backend.wrapped_bind {σ ε : Type} {wrap : σ → Backend} {first second : EStateM ε σ Unit}
    {first' second' : EStateM ε Backend Unit} {store : σ}
    (firstWraps : ∀ store, first' (wrap store) = wrapped wrap (first store))
    (secondWraps : ∀ store, second' (wrap store) = wrapped wrap (second store)) :
    (first' >>= fun _ => second') (wrap store) =
      wrapped wrap ((first >>= fun _ => second) store) := by
  rw [bind_apply, bind_apply, firstWraps]
  cases first store with
  | ok _ middle => exact secondWraps middle
  | error error left => rfl

theorem Backend.Wraps.swapByCopy {σ : Type} [Store σ] [LawfulStore σ] {wrap : σ → Backend}
    (wraps : Backend.Wraps wrap) (ofWrapped : Store.SwapByCopy σ) {store : σ} {left right : Nat}
    (sound : (wrap store).Sound) (different : left ≠ right)
    (leftInside : left < Elements.size (wrap store))
    (rightInside : right < Elements.size (wrap store)) :
    Store.swap left right (wrap store) = Elements.swapByCopy left right (wrap store) := by
  rw [LawfulStore.swapByCopy_inside sound different leftInside rightInside]
  rw [wraps.size_eq] at leftInside rightInside
  have inner := (wraps.sound_iff store).mp sound
  rw [wraps.swap_eq, ofWrapped store left right inner different leftInside rightInside,
    LawfulStore.swapByCopy_inside inner different leftInside rightInside, wraps.contents_eq]
  exact (Backend.wrapped_bind (wraps.overwrite_eq left _) (wraps.overwrite_eq right _)).symm

theorem Backend.swapByCopy : Store.SwapByCopy Backend := by
  intro backend left right sound different leftInside rightInside
  cases backend with
  | heap store =>
      exact wraps_heap.swapByCopy (Flat.swapByCopy _) sound different leftInside rightInside
  | mapped store =>
      exact wraps_mapped.swapByCopy (Flat.swapByCopy _) sound different leftInside rightInside
  | chain store =>
      exact wraps_chain.swapByCopy (Chain.swapByCopy (Flat.swapByCopy _)) sound different
        leftInside rightInside
  | mappedChain store =>
      exact wraps_mappedChain.swapByCopy (Chain.swapByCopy (Flat.swapByCopy _)) sound different
        leftInside rightInside

namespace Store

variable {σ : Type} [Store σ]

/-- A store with two elements exchanged. -/
structure Exchanged (left right : Nat) (before after : σ) : Prop where
  size_eq : Elements.size after = Elements.size before
  left_eq : Elements.element after left = Elements.element before right
  right_eq : Elements.element after right = Elements.element before left
  others_eq : ∀ index, index ≠ left → index ≠ right →
    Elements.element after index = Elements.element before index

/-- What can be relied on about the exchanges of a store. -/
structure SwapsAsByCopy (store : σ) : Prop where
  /-- An element and itself are not touched, also where there is none. -/
  self : ∀ index, Store.swap index index store = .ok () store ∧
    Elements.swapByCopy index index store = .ok () store
  /-- Elements that are there are exchanged, in either way with the same result. -/
  inside : ∀ {left right : Nat}, left < Elements.size store → right < Elements.size store →
    ∃ after, Store.swap left right store = .ok () after ∧
      Elements.swapByCopy left right store = .ok () after ∧ Exchanged left right store after
  /-- It does not matter which of them is named first. -/
  comm : ∀ {left right : Nat} {after : σ}, left < Elements.size store →
    right < Elements.size store → Store.swap left right store = .ok () after →
    ∃ other, Store.swap right left store = .ok () other ∧ SameElements after other
  /-- A second exchange takes the first one back. -/
  involutive : ∀ {left right : Nat} {after : σ}, left < Elements.size store →
    right < Elements.size store → Store.swap left right store = .ok () after →
    ∃ back, Store.swap left right after = .ok () back ∧ SameElements store back
  /-- Elements that are not there are reported, and nothing is changed. -/
  outside : ∀ {left right : Nat}, left ≠ right →
    ¬ (left < Elements.size store ∧ right < Elements.size store) →
    (∃ fault, Store.swap left right store = .error fault store) ∧
      ∃ fault, Elements.swapByCopy left right store = .error fault store

variable [LawfulStore σ] {store : σ} {left right : Nat}

theorem Exchanged.of_becomes {after : σ} (sound : Sound store)
    (leftInside : left < Elements.size store) (rightInside : right < Elements.size store)
    (becomes : Store.Becomes Sound Affords store after (Elements.size store)
      (Elements.contents store ∘ Equiv.swap left right)) :
    Exchanged left right store after := by
  have read := element_of_becomes becomes
  refine ⟨becomes.size_eq, ?left, ?right, ?others⟩
  case left =>
    rw [read, if_pos leftInside, Function.comp_apply, Equiv.swap_apply_left,
      element_inside sound rightInside]
  case right =>
    rw [read, if_pos rightInside, Function.comp_apply, Equiv.swap_apply_right,
      element_inside sound leftInside]
  case others =>
    intro index notLeft notRight
    rw [read, Function.comp_apply, Equiv.swap_apply_of_ne_of_ne notLeft notRight,
      element_eq sound]

theorem SwapByCopy.swapsAsByCopy (byCopy : SwapByCopy σ) (sound : Sound store) :
    SwapsAsByCopy store where
  self index := ⟨swap_self, swapByCopy_self index⟩
  inside {left right} leftInside rightInside := by
    obtain ⟨after, done, becomes⟩ := exchange_inside sound leftInside rightInside
    refine ⟨after, done, ?_, Exchanged.of_becomes sound leftInside rightInside becomes⟩
    by_cases same : left = right
    · subst same
      rw [swap_self] at done
      rw [swapByCopy_self, done]
    · rw [← byCopy store left right sound same leftInside rightInside, done]
  comm {left right after} leftInside rightInside done := by
    obtain ⟨after', done', becomes⟩ := exchange_inside sound leftInside rightInside
    rw [done] at done'
    cases done'
    obtain ⟨other, otherDone, otherBecomes⟩ := exchange_inside sound rightInside leftInside
    rw [Equiv.swap_comm] at otherBecomes
    exact ⟨other, otherDone, sameElements_of_becomes becomes otherBecomes⟩
  involutive {left right after} leftInside rightInside done := by
    obtain ⟨after', done', becomes⟩ := exchange_inside sound leftInside rightInside
    rw [done] at done'
    cases done'
    obtain ⟨back, backDone, backBecomes⟩ := exchange_inside becomes.sound
      (becomes.size_eq ▸ leftInside) (becomes.size_eq ▸ rightInside)
    have restored : Elements.contents after ∘ Equiv.swap left right = Elements.contents store := by
      funext index
      rw [Function.comp_apply, becomes.contents_eq, Function.comp_apply, Equiv.swap_apply_self]
    rw [restored, becomes.size_eq] at backBecomes
    exact ⟨back, backDone,
      sameElements_of_becomes (becomes_self sound) (becomes.trans backBecomes)⟩
  outside different outside :=
    ⟨swap_outside sound different outside, swapByCopy_outside sound different outside⟩

end Store

end RecordPool
