import RecordPool.IndexSet
import Mathlib.Data.Finset.Card

/-!
# Members of index sets

The bits of the words are read one by one.  Insertion and erasure change the
membership of the given index and of no other, clearing leaves no member, and the
count kept beside the words is the number of members.
-/

namespace RecordPool.IndexSet

private theorem toBitVec_bitMask {bit : Nat} (inside : bit < wordWidth) :
    (bitMask bit).toBitVec = BitVec.twoPow 64 bit := by
  have small : bit % 64 = bit := Nat.mod_eq_of_lt inside
  simp [bitMask, UInt64.toBitVec_shiftLeft, BitVec.twoPow_eq, small]

theorem hasBit_eq_getLsbD (word : UInt64) {bit : Nat} (inside : bit < wordWidth) :
    hasBit word bit = word.toBitVec.getLsbD bit := by
  have inside : bit < 64 := inside
  have nonzero : BitVec.twoPow 64 bit ≠ 0#64 := by
    intro zero
    have bitSet : (BitVec.twoPow 64 bit).getLsbD bit = true := by
      simp [inside]
    simp [zero] at bitSet
  have masked :
      word &&& bitMask bit = 0 ↔ word.toBitVec &&& BitVec.twoPow 64 bit = 0#64 := by
    rw [← toBitVec_bitMask inside, ← UInt64.toBitVec_and, ← UInt64.toBitVec_zero,
      UInt64.toBitVec_inj]
  rw [hasBit, bne, Bool.eq_iff_iff]
  simp only [Bool.not_eq_true', beq_eq_false_iff_ne, ne_eq, masked, BitVec.and_twoPow]
  cases word.toBitVec.getLsbD bit <;> simp [nonzero]

@[simp]
theorem hasBit_zero (bit : Nat) : hasBit 0 bit = false := by
  simp [hasBit]

/-- Setting a bit sets no other. -/
theorem hasBit_or_bitMask (word : UInt64) {bit other : Nat} (inside : bit < wordWidth)
    (otherInside : other < wordWidth) :
    hasBit (word ||| bitMask bit) other = (decide (other = bit) || hasBit word other) := by
  have bound : bit < 64 := inside
  rw [hasBit_eq_getLsbD _ otherInside, hasBit_eq_getLsbD _ otherInside, UInt64.toBitVec_or,
    toBitVec_bitMask inside, BitVec.getLsbD_or, BitVec.getLsbD_twoPow]
  simp [bound, Bool.or_comm, eq_comm]

/-- Unsetting a bit unsets no other. -/
theorem hasBit_and_not_bitMask (word : UInt64) {bit other : Nat} (inside : bit < wordWidth)
    (otherInside : other < wordWidth) :
    hasBit (word &&& ~~~ bitMask bit) other = (decide (other ≠ bit) && hasBit word other) := by
  have bound : bit < 64 := inside
  have otherBound : other < 64 := otherInside
  rw [hasBit_eq_getLsbD _ otherInside, hasBit_eq_getLsbD _ otherInside, UInt64.toBitVec_and,
    UInt64.toBitVec_not, toBitVec_bitMask inside, BitVec.getLsbD_and, BitVec.getLsbD_not,
    BitVec.getLsbD_twoPow]
  simp [bound, otherBound, Bool.and_comm, eq_comm]

/-- What is left of a word from a bit on are its bits that are not below. -/
theorem hasBit_bitsFrom (word : UInt64) {start bit : Nat} (startInside : start < wordWidth)
    (inside : bit < wordWidth) :
    hasBit (bitsFrom word start) bit = (decide (start ≤ bit) && hasBit word bit) := by
  rw [hasBit_eq_getLsbD _ inside, hasBit_eq_getLsbD _ inside,
    getLsbD_bitsFrom word startInside inside]

/-- The zeros below the lowest set bit lead to it. -/
theorem hasBit_trailingZeros {word : UInt64} (nonzero : word ≠ 0) :
    hasBit word (trailingZeros word) = true := by
  rw [hasBit_eq_getLsbD _ (trailingZeros_lt nonzero)]
  exact BitVec.getLsbD_true_ctz_of_ne_zero (toBitVec_ne_zero nonzero)

theorem trailingZeros_le {word : UInt64} {bit : Nat} (inside : bit < wordWidth)
    (isSet : hasBit word bit = true) : trailingZeros word ≤ bit := by
  rw [hasBit_eq_getLsbD _ inside] at isSet
  by_contra below
  have unset := BitVec.getLsbD_false_of_lt_ctz (Nat.lt_of_not_le below)
  rw [isSet] at unset
  contradiction

/-- A word by its number, empty when the set does not have as many words. -/
def wordAt (set : IndexSet) (number : Nat) : UInt64 :=
  set.words[number]?.getD 0

theorem contains_eq_hasBit (set : IndexSet) (index : Nat) :
    set.contains index = hasBit (set.wordAt (index / wordWidth)) (index % wordWidth) := by
  unfold contains wordAt
  cases set.words[index / wordWidth]? <;> simp

/-- An index is its word and its bit. -/
theorem eq_iff_word_bit (index other : Nat) :
    other = index ↔
      index / wordWidth = other / wordWidth ∧ other % wordWidth = index % wordWidth := by
  constructor
  · rintro rfl
    exact ⟨rfl, rfl⟩
  · rintro ⟨word, bit⟩
    rw [← Nat.div_add_mod other wordWidth, ← Nat.div_add_mod index wordWidth, word, bit]

private theorem wordAt_wordsUpTo (set : IndexSet) (word number : Nat) :
    (set.wordsUpTo word)[number]?.getD 0 = set.wordAt number := by
  unfold wordsUpTo wordAt
  rw [Array.getElem?_append]
  split
  case isTrue => rfl
  case isFalse past =>
      rw [Array.getElem?_replicate]
      split <;> simp [past]

/-- Insertion sets one bit of one word. -/
theorem wordAt_insert (set : IndexSet) (index number : Nat) :
    (set.insert index).2.wordAt number =
      if index / wordWidth = number then
        set.wordAt number ||| bitMask (index % wordWidth)
      else
        set.wordAt number := by
  have widened := wordAt_wordsUpTo set (index / wordWidth) number
  simp only [wordAt, insert, Array.getElem?_modify] at widened ⊢
  split
  case isTrue same =>
      subst same
      have present : index / wordWidth < (set.wordsUpTo (index / wordWidth)).size := by
        simp only [wordsUpTo, Array.size_append, Array.size_replicate]
        omega
      rw [Array.getElem?_eq_getElem present] at widened ⊢
      simp only [Option.map_some, Option.getD_some] at widened ⊢
      rw [widened]
  case isFalse => exact widened

/-- Erasing a member unsets one bit of one word. -/
theorem wordAt_erase {set : IndexSet} {index : Nat} (member : set.contains index = true)
    (number : Nat) :
    (set.erase index).2.wordAt number =
      if index / wordWidth = number then
        set.wordAt number &&& ~~~ bitMask (index % wordWidth)
      else
        set.wordAt number := by
  simp only [wordAt, erase, member, if_true, Array.getElem?_modify]
  split
  case isTrue => cases set.words[number]? <;> simp
  case isFalse => rfl

@[simp]
theorem wordAt_clear (set : IndexSet) (number : Nat) : set.clear.wordAt number = 0 := by
  simp only [wordAt, clear, Array.getElem?_map]
  cases set.words[number]? <;> rfl

theorem contains_insert (set : IndexSet) (index other : Nat) :
    (set.insert index).2.contains other =
      (decide (other = index) || set.contains other) := by
  have inside : index % wordWidth < wordWidth := Nat.mod_lt _ (by decide)
  have otherInside : other % wordWidth < wordWidth := Nat.mod_lt _ (by decide)
  rw [contains_eq_hasBit, contains_eq_hasBit, wordAt_insert]
  by_cases word : index / wordWidth = other / wordWidth
  · rw [if_pos word, hasBit_or_bitMask _ inside otherInside]
    simp [eq_iff_word_bit index other, word]
  · rw [if_neg word]
    simp [eq_iff_word_bit index other, word]

theorem contains_erase (set : IndexSet) (index other : Nat) :
    (set.erase index).2.contains other =
      (decide (other ≠ index) && set.contains other) := by
  by_cases member : set.contains index = true
  · have inside : index % wordWidth < wordWidth := Nat.mod_lt _ (by decide)
    have otherInside : other % wordWidth < wordWidth := Nat.mod_lt _ (by decide)
    rw [contains_eq_hasBit, contains_eq_hasBit, wordAt_erase member]
    by_cases word : index / wordWidth = other / wordWidth
    · rw [if_pos word, hasBit_and_not_bitMask _ inside otherInside]
      simp [eq_iff_word_bit index other, word]
    · rw [if_neg word]
      simp [eq_iff_word_bit index other, word]
  · -- What is not a member is not erased: the set is the same.
    rw [erase, if_neg member]
    by_cases same : other = index
    · simp [same, Bool.eq_false_iff.mpr member]
    · simp [same]

theorem mem_iff_contains {set : IndexSet} {index : Nat} :
    index ∈ set ↔ set.contains index = true :=
  Iff.rfl

theorem mem_insert_iff {set : IndexSet} {index other : Nat} :
    other ∈ (set.insert index).2 ↔ other = index ∨ other ∈ set := by
  simp [mem_iff_contains, contains_insert]

theorem mem_erase_iff {set : IndexSet} {index other : Nat} :
    other ∈ (set.erase index).2 ↔ other ≠ index ∧ other ∈ set := by
  simp [mem_iff_contains, contains_erase]

theorem not_mem_empty (index : Nat) : ¬ index ∈ ({} : IndexSet) := by
  simp [mem_iff_contains, contains]

theorem not_mem_clear (set : IndexSet) (index : Nat) : ¬ index ∈ set.clear := by
  simp [mem_iff_contains, contains_eq_hasBit]

/-- The set has exactly the given members, and counts them. -/
structure Represents (set : IndexSet) (members : Finset Nat) : Prop where
  mem_iff : ∀ index, index ∈ set ↔ index ∈ members
  count_eq : set.count = members.card

namespace Represents

variable {set : IndexSet} {members : Finset Nat} {index : Nat}

theorem empty : Represents {} ∅ where
  mem_iff index := by simp [not_mem_empty]
  count_eq := rfl

theorem clear (set : IndexSet) : Represents set.clear ∅ where
  mem_iff index := by simp [not_mem_clear]
  count_eq := rfl

theorem contains_eq (represents : set.Represents members) (index : Nat) :
    set.contains index = decide (index ∈ members) := by
  rw [Bool.eq_iff_iff, decide_eq_true_iff]
  exact represents.mem_iff index

theorem insert (represents : set.Represents members) (index : Nat) :
    (set.insert index).2.Represents (Insert.insert index members) where
  mem_iff other := by
    rw [mem_insert_iff, Finset.mem_insert, represents.mem_iff]
  count_eq := by
    by_cases member : index ∈ members
    · simp [IndexSet.insert, represents.contains_eq, member, represents.count_eq]
    · simp [IndexSet.insert, represents.contains_eq, member, represents.count_eq]

theorem erase (represents : set.Represents members) (index : Nat) :
    (set.erase index).2.Represents (members.erase index) where
  mem_iff other := by
    rw [mem_erase_iff, Finset.mem_erase, represents.mem_iff]
  count_eq := by
    by_cases member : index ∈ members
    · simp [IndexSet.erase, represents.contains_eq, member, represents.count_eq]
    · simp [IndexSet.erase, represents.contains_eq, member, represents.count_eq]

end Represents

end RecordPool.IndexSet
