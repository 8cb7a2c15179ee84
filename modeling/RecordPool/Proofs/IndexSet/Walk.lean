import RecordPool.Proofs.IndexSet.Members
import Mathlib.Data.Finset.Sort

/-!
# Ascending walks over index sets

`nextFrom?` skips empty words and still finds the least member that is not below its
start.  Asked again and again it therefore enumerates all members, each once and in
ascending order.
-/

namespace RecordPool.IndexSet

/-- The word and the bit of an index made of them. -/
theorem word_bit (word : Nat) {bit : Nat} (inside : bit < wordWidth) :
    (wordWidth * word + bit) / wordWidth = word ∧ (wordWidth * word + bit) % wordWidth = bit := by
  rw [Nat.mul_add_div (by decide), Nat.div_eq_of_lt inside, Nat.mul_add_mod,
    Nat.mod_eq_of_lt inside]
  exact ⟨Nat.add_zero word, rfl⟩

/-- What is left to a scan: the bits left of the word at hand, and all later words. -/
def LeftOf (set : IndexSet) (word : Nat) (bits : UInt64) (index : Nat) : Prop :=
  index / wordWidth = word ∧ hasBit bits (index % wordWidth) = true ∨
    word < index / wordWidth ∧ index ∈ set

/-- With no bit left of the word at hand, what is left is in the word after it and later. -/
theorem leftOf_zero_iff {set : IndexSet} {word index : Nat} (inside : word + 1 < set.words.size) :
    set.LeftOf word 0 index ↔ set.LeftOf (word + 1) set.words[word + 1] index := by
  have stored : set.wordAt (word + 1) = set.words[word + 1] := by simp [wordAt, inside]
  simp only [LeftOf, hasBit_zero, Bool.false_eq_true, and_false, false_or, mem_iff_contains,
    contains_eq_hasBit, ← stored]
  constructor
  · rintro ⟨later, isSet⟩
    by_cases next : index / wordWidth = word + 1
    · exact .inl ⟨next, next ▸ isSet⟩
    · exact .inr ⟨by omega, isSet⟩
  · rintro (⟨next, isSet⟩ | ⟨later, isSet⟩)
    · exact ⟨by omega, next ▸ isSet⟩
    · exact ⟨by omega, isSet⟩

/-- Past the last word nothing is left. -/
theorem not_leftOf_zero {set : IndexSet} {word : Nat} (last : ¬ word + 1 < set.words.size)
    (index : Nat) : ¬ set.LeftOf word 0 index := by
  rintro (⟨-, isSet⟩ | ⟨later, member⟩)
  · simp at isSet
  · rw [mem_iff_contains, contains_eq_hasBit, wordAt, Array.getElem?_eq_none (by omega)] at member
    simp at member

/-- A scan finds the least index that is left to it, if there is one. -/
theorem scan_spec (set : IndexSet) (word : Nat) (bits : UInt64) :
    match scan set.words word bits with
    | some index =>
        set.LeftOf word bits index ∧ ∀ other, set.LeftOf word bits other → index ≤ other
    | none => ∀ other, ¬ set.LeftOf word bits other := by
  fun_induction scan set.words word bits with
  | case1 word bits nonzero =>
      -- The word at hand has a bit left: its lowest one, and later words are larger.
      have nonzero : bits ≠ 0 := by simpa using nonzero
      have inside := trailingZeros_lt nonzero
      obtain ⟨quotient, remainder⟩ := word_bit word inside
      refine ⟨.inl ⟨quotient, ?_⟩, ?_⟩
      · rw [remainder]
        exact hasBit_trailingZeros nonzero
      rintro other (⟨same, isSet⟩ | ⟨later, -⟩)
      · have least := trailingZeros_le (Nat.mod_lt other (by decide)) isSet
        have routed := Nat.div_add_mod other wordWidth
        rw [same] at routed
        omega
      · have start := Nat.mul_div_le other wordWidth
        have next : wordWidth * (word + 1) ≤ wordWidth * (other / wordWidth) :=
          Nat.mul_le_mul_left _ later
        rw [Nat.mul_succ] at next
        omega
  | case2 word bits zero inside ih =>
      -- No bit is left of the word at hand: the scan goes on with the next one.
      obtain rfl : bits = 0 := by simpa using zero
      simp only [leftOf_zero_iff inside]
      exact ih
  | case3 word bits zero last =>
      obtain rfl : bits = 0 := by simpa using zero
      exact not_leftOf_zero last

/-- Left to the scan of `nextFrom?` are the members that are not below the start. -/
theorem leftOf_bitsFrom_iff {set : IndexSet} {start index : Nat} {word : UInt64}
    (there : set.words[start / wordWidth]? = some word) :
    set.LeftOf (start / wordWidth) (bitsFrom word (start % wordWidth)) index ↔
      start ≤ index ∧ index ∈ set := by
  have stored : set.wordAt (start / wordWidth) = word := by rw [wordAt, there]; rfl
  have startRouted := Nat.div_add_mod start wordWidth
  have routed := Nat.div_add_mod index wordWidth
  have startInside : start % wordWidth < wordWidth := Nat.mod_lt _ (by decide)
  have inside : index % wordWidth < wordWidth := Nat.mod_lt _ (by decide)
  rw [LeftOf, hasBit_bitsFrom word startInside inside, Bool.and_eq_true, decide_eq_true_eq,
    mem_iff_contains, contains_eq_hasBit]
  rcases Nat.lt_trichotomy (index / wordWidth) (start / wordWidth) with earlier | same | later
  · have next : wordWidth * (index / wordWidth + 1) ≤ wordWidth * (start / wordWidth) :=
      Nat.mul_le_mul_left _ earlier
    rw [Nat.mul_succ] at next
    constructor
    · rintro (⟨same, -⟩ | ⟨later, -⟩) <;> omega
    · rintro ⟨started, -⟩
      omega
  · rw [same] at routed
    simp only [same, stored, Nat.lt_irrefl, false_and, or_false, true_and]
    exact and_congr_left fun _ => by omega
  · have next : wordWidth * (start / wordWidth + 1) ≤ wordWidth * (index / wordWidth) :=
      Nat.mul_le_mul_left _ later
    rw [Nat.mul_succ] at next
    have started : start ≤ index := by omega
    simp only [Nat.ne_of_gt later, later, started, false_and, false_or, true_and]

/-- Beyond the words there are no members. -/
theorem lt_of_mem_of_none {set : IndexSet} {start index : Nat}
    (nothing : set.words[start / wordWidth]? = none) (member : index ∈ set) : index < start := by
  by_contra started
  have later : start / wordWidth ≤ index / wordWidth :=
    Nat.div_le_div_right (Nat.le_of_not_lt started)
  have size := Array.getElem?_eq_none_iff.mp nothing
  rw [mem_iff_contains, contains_eq_hasBit, wordAt, Array.getElem?_eq_none (by omega)] at member
  simp at member

/-- The least member from a start on is found, if there is one. -/
theorem nextFrom?_spec (set : IndexSet) (start : Nat) :
    match set.nextFrom? start with
    | some index =>
        (start ≤ index ∧ index ∈ set) ∧ ∀ other, start ≤ other ∧ other ∈ set → index ≤ other
    | none => ∀ index, ¬ (start ≤ index ∧ index ∈ set) := by
  unfold nextFrom?
  cases there : set.words[start / wordWidth]? with
  | none =>
      rintro index ⟨started, member⟩
      exact Nat.not_lt.mpr started (lt_of_mem_of_none there member)
  | some word =>
      have scanned := scan_spec set (start / wordWidth) (bitsFrom word (start % wordWidth))
      simp only [leftOf_bitsFrom_iff there] at scanned
      exact scanned

/-- A member found is the least one from the start on. -/
theorem nextFrom?_eq_some_iff {set : IndexSet} {start index : Nat} :
    set.nextFrom? start = some index ↔
      index ∈ set ∧ start ≤ index ∧ ∀ other ∈ set, start ≤ other → index ≤ other := by
  have spec := set.nextFrom?_spec start
  cases next : set.nextFrom? start with
  | none =>
      rw [next] at spec
      simp only [reduceCtorEq, false_iff]
      rintro ⟨member, started, -⟩
      exact spec index ⟨started, member⟩
  | some found =>
      rw [next] at spec
      obtain ⟨⟨foundStarted, foundMember⟩, foundLeast⟩ := spec
      constructor
      · rintro ⟨rfl⟩
        exact ⟨foundMember, foundStarted, fun other member started =>
          foundLeast other ⟨started, member⟩⟩
      · rintro ⟨member, started, least⟩
        have notLater := foundLeast index ⟨started, member⟩
        have notEarlier := least found foundMember foundStarted
        rw [Nat.le_antisymm notLater notEarlier]

/-- Nothing is found when all members lie below the start. -/
theorem nextFrom?_eq_none_iff {set : IndexSet} {start : Nat} :
    set.nextFrom? start = none ↔ ∀ other ∈ set, other < start := by
  have spec := set.nextFrom?_spec start
  cases next : set.nextFrom? start with
  | none =>
      rw [next] at spec
      refine ⟨fun _ other member => ?_, fun _ => rfl⟩
      exact Nat.lt_of_not_le fun started => spec other ⟨started, member⟩
  | some found =>
      rw [next] at spec
      simp only [reduceCtorEq, false_iff]
      exact fun below => Nat.not_lt.mpr spec.1.1 (below found spec.1.2)

theorem mem_membersFrom_iff {set : IndexSet} {start index : Nat} :
    index ∈ set.membersFrom start ↔ start ≤ index ∧ index ∈ set := by
  fun_induction membersFrom set start with
  | case1 start nothing =>
      have below := nextFrom?_eq_none_iff.mp nothing
      simp only [List.not_mem_nil, false_iff, not_and]
      intro started member
      have := below index member
      omega
  | case2 start first found ih =>
      obtain ⟨member, started, least⟩ := nextFrom?_eq_some_iff.mp found
      rw [List.mem_cons, ih]
      constructor
      · rintro (rfl | ⟨later, later_mem⟩)
        · exact ⟨started, member⟩
        · exact ⟨by omega, later_mem⟩
      · rintro ⟨indexStarted, indexMember⟩
        have := least index indexMember indexStarted
        by_cases same : index = first
        · exact .inl same
        · exact .inr ⟨by omega, indexMember⟩

theorem pairwise_membersFrom (set : IndexSet) (start : Nat) :
    (set.membersFrom start).Pairwise (· < ·) := by
  fun_induction membersFrom set start with
  | case1 => exact .nil
  | case2 start first found ih =>
      refine .cons ?_ ih
      intro later later_mem
      have := (mem_membersFrom_iff.mp later_mem).1
      omega

theorem mem_toList_iff {set : IndexSet} {index : Nat} : index ∈ set.toList ↔ index ∈ set := by
  rw [toList, mem_membersFrom_iff]
  simp

theorem pairwise_toList (set : IndexSet) : set.toList.Pairwise (· < ·) :=
  pairwise_membersFrom set 0

/-- The next member is the head of those that are left. -/
theorem nextFrom?_eq_head? (set : IndexSet) (start : Nat) :
    set.nextFrom? start = (set.membersFrom start).head? := by
  rw [membersFrom]
  split
  case h_1 nothing => rw [nothing]; rfl
  case h_2 first found => rw [found]; rfl

/-- Past the next member, the tail of those that were left is left. -/
theorem membersFrom_next {set : IndexSet} {start index : Nat}
    (found : set.nextFrom? start = some index) :
    set.membersFrom (index + 1) = (set.membersFrom start).tail := by
  conv_rhs => rw [membersFrom]
  split
  case h_1 nothing =>
      rw [found] at nothing
      contradiction
  case h_2 first firstFound =>
      rw [found] at firstFound
      cases firstFound
      rfl

/-- A walk over the words lists the members that they represent. -/
theorem Represents.toList_eq {set : IndexSet} {members : Finset Nat}
    (represents : set.Represents members) : set.toList = members.sort := by
  apply List.Perm.eq_of_pairwise' (r := (· < ·))
  · exact pairwise_toList set
  · exact members.sortedLT_sort.pairwise
  · apply (List.perm_ext_iff_of_nodup _ _).mpr
    · intro index
      rw [mem_toList_iff, represents.mem_iff, Finset.mem_sort]
    · exact (pairwise_toList set).imp Nat.ne_of_lt
    · exact members.sort_nodup _

end RecordPool.IndexSet
