import RecordPool.Proofs.Store.Backend

/-!
# Elements in blocks of memory

Every element of a store lies in some block of memory, so that no element is larger than a
block can be.  A chain has its elements in the blocks of its sub-arrays.
-/

namespace RecordPool

/-- The elements of stores of a kind are smaller than the largest blocks. -/
def Store.InBlocks (σ : Type) [Store σ] [LawfulStore σ] : Prop :=
  ∀ store : σ, LawfulStore.Sound store → ∀ index, index < Elements.size store →
    Elements.elementSize store < Address.blockLimit

theorem Flat.inBlocks (medium : Medium) : Store.InBlocks (Flat medium) := by
  intro store sound index inside
  have soundStore : store.Sound := sound
  have one : store.elementSize ≤ store.size * store.elementSize :=
    Nat.le_mul_of_pos_left _ (Nat.zero_lt_of_lt inside)
  rw [← soundStore.size_block] at one
  exact Nat.lt_of_le_of_lt one soundStore.block_lt

theorem Chain.inBlocks {σ : Type} [SubStore σ] [LawfulSubStore σ] (ofArrays : Store.InBlocks σ) :
    Store.InBlocks (Chain σ) := by
  intro chain sound index inside
  have soundChain : chain.Sound := sound
  obtain ⟨store, present, localInside⟩ := Chain.exists_array soundChain inside
  have fits := soundChain.fits present
  have bounded := ofArrays store fits.sound _ localInside
  rw [fits.elementSize_eq] at bounded
  exact bounded

theorem Backend.Wraps.inBlocks {σ : Type} [Store σ] [LawfulStore σ] {wrap : σ → Backend}
    (wraps : Backend.Wraps wrap) (ofWrapped : Store.InBlocks σ) {store : σ}
    (sound : (wrap store).Sound) {index : Nat} (inside : index < Elements.size (wrap store)) :
    Elements.elementSize (wrap store) < Address.blockLimit := by
  rw [wraps.size_eq] at inside
  rw [wraps.elementSize_eq]
  exact ofWrapped store ((wraps.sound_iff store).mp sound) index inside

theorem Backend.inBlocks : Store.InBlocks Backend := by
  intro backend sound index inside
  cases backend with
  | heap store => exact wraps_heap.inBlocks (Flat.inBlocks _) sound inside
  | mapped store => exact wraps_mapped.inBlocks (Flat.inBlocks _) sound inside
  | chain store => exact wraps_chain.inBlocks (Chain.inBlocks (Flat.inBlocks _)) sound inside
  | mappedChain store =>
      exact wraps_mappedChain.inBlocks (Chain.inBlocks (Flat.inBlocks _)) sound inside

end RecordPool
