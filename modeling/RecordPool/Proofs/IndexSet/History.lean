import RecordPool.Address
import RecordPool.Proofs.IndexSet.Walk
import Mathlib.Order.Bounds.Basic

/-!
# Histories of index sets

Indices are inserted into a set and erased from it, and the whole set is cleared.  The same
changes can be made to a finite set, and whatever the history, the index set cannot be told from
it: every change tells whether the finite set became another one, and every question is answered
as the finite set answers it.

It follows that an index is a member by reason of the changes to itself alone, whichever bits
share its word, and that a set that was cleared goes on like a new one, although it keeps its
words.
-/

namespace RecordPool.IndexSet

/-- What can be done to an index set. -/
inductive Change where
  | insert (index : Nat)
  | erase (index : Nat)
  | clear

namespace Change

/-- The members after a change. -/
def apply (members : Finset Nat) : Change → Finset Nat
  | .insert index => Insert.insert index members
  | .erase index => members.erase index
  | .clear => ∅

/-- What is told of a change: whether it makes the members others.  Of clearing nothing is told. -/
def telling (members : Finset Nat) : Change → Option Bool
  | .insert index => some (decide (Insert.insert index members ≠ members))
  | .erase index => some (decide (members.erase index ≠ members))
  | .clear => none

/-- Whether a change has to do with an index. -/
def concerns (index : Nat) : Change → Bool
  | .insert other => other = index
  | .erase other => other = index
  | .clear => true

/-- Whether the position past the index of a change is one that a machine word holds. -/
def isAddressable : Change → Bool
  | .insert index => index + 1 < Address.limit
  | .erase index => index + 1 < Address.limit
  | .clear => true

end Change

/-- Makes a change, and tells what comes of it. -/
def step (set : IndexSet) : Change → Option Bool × IndexSet
  | .insert index => (some (set.insert index).1, (set.insert index).2)
  | .erase index => (some (set.erase index).1, (set.erase index).2)
  | .clear => (none, set.clear)

/-- Makes changes in order. -/
def run (set : IndexSet) : List Change → List (Option Bool) × IndexSet
  | [] => ([], set)
  | change :: rest =>
      let (telling, after) := set.step change
      let (tellings, final) := after.run rest
      (telling :: tellings, final)

/-- The members after changes. -/
def membersAfter (members : Finset Nat) (changes : List Change) : Finset Nat :=
  changes.foldl Change.apply members

/-- What is told of changes to the members. -/
def tellings (members : Finset Nat) : List Change → List (Option Bool)
  | [] => []
  | change :: rest => change.telling members :: tellings (change.apply members) rest

/-- The set answers every question as the finite set does. -/
structure AnswersAs (set : IndexSet) (members : Finset Nat) : Prop where
  contains_eq : ∀ index, set.contains index = decide (index ∈ members)
  count_eq : set.count = members.card
  isEmpty_eq : set.isEmpty = decide (members.card = 0)
  nextFrom?_eq_some : ∀ start index,
    set.nextFrom? start = some index ↔ IsLeast {member ∈ members | start ≤ member} index
  nextFrom?_eq_none : ∀ start,
    set.nextFrom? start = none ↔ ∀ member ∈ members, ¬ start ≤ member
  mem_toList : ∀ index, index ∈ set.toList ↔ index ∈ members
  ascending : set.toList.Pairwise (· < ·)

/-- No question tells the sets apart. -/
structure Alike (left right : IndexSet) : Prop where
  contains_eq : ∀ index, left.contains index = right.contains index
  count_eq : left.count = right.count
  isEmpty_eq : left.isEmpty = right.isEmpty
  nextFrom?_eq : ∀ start, left.nextFrom? start = right.nextFrom? start
  toList_eq : left.toList = right.toList

section Represents

variable {set left right : IndexSet} {members : Finset Nat}

theorem Represents.answersAs (represents : set.Represents members) : set.AnswersAs members where
  contains_eq := represents.contains_eq
  count_eq := represents.count_eq
  isEmpty_eq := by rw [isEmpty, represents.count_eq]
  nextFrom?_eq_some start index := by
    rw [nextFrom?_eq_some_iff]
    simp only [represents.mem_iff, IsLeast, lowerBounds, Set.mem_ofPred_eq, and_imp, and_assoc]
  nextFrom?_eq_none start := by
    rw [nextFrom?_eq_none_iff]
    simp only [represents.mem_iff, Nat.not_le]
  mem_toList index := mem_toList_iff.trans (represents.mem_iff index)
  ascending := pairwise_toList set

/-- Sets with the same members are alike, whatever their words. -/
theorem Represents.alike (ofLeft : left.Represents members) (ofRight : right.Represents members) :
    Alike left right where
  contains_eq index := (ofLeft.contains_eq index).trans (ofRight.contains_eq index).symm
  count_eq := ofLeft.count_eq.trans ofRight.count_eq.symm
  isEmpty_eq := ofLeft.answersAs.isEmpty_eq.trans ofRight.answersAs.isEmpty_eq.symm
  nextFrom?_eq start := by
    apply Option.ext
    intro index
    rw [ofLeft.answersAs.nextFrom?_eq_some, ofRight.answersAs.nextFrom?_eq_some]
  toList_eq := ofLeft.toList_eq.trans ofRight.toList_eq.symm

/-! ## Histories -/

theorem Represents.step (represents : set.Represents members) (change : Change) :
    (set.step change).1 = change.telling members ∧
      (set.step change).2.Represents (change.apply members) := by
  cases change with
  | insert index =>
      refine ⟨?_, represents.insert index⟩
      simp [IndexSet.step, IndexSet.insert, Change.telling, represents.contains_eq]
  | erase index =>
      refine ⟨?_, represents.erase index⟩
      by_cases member : index ∈ members
      · simp [IndexSet.step, IndexSet.erase, Change.telling, represents.contains_eq, member]
      · simp [IndexSet.step, IndexSet.erase, Change.telling, represents.contains_eq, member]
  | clear => exact ⟨rfl, .clear set⟩

theorem Represents.run (represents : set.Represents members) (changes : List Change) :
    (set.run changes).1 = tellings members changes ∧
      (set.run changes).2.Represents (membersAfter members changes) := by
  induction changes generalizing set members with
  | nil => exact ⟨rfl, represents⟩
  | cons change rest ih =>
      obtain ⟨telling, after⟩ := represents.step change
      obtain ⟨further, final⟩ := ih after
      exact ⟨congrArg₂ List.cons telling further, final⟩

end Represents

theorem represents_run (changes : List Change) :
    (run {} changes).2.Represents (membersAfter ∅ changes) :=
  (Represents.empty.run changes).2

/-- Members come from insertions. -/
theorem mem_membersAfter {index : Nat} {changes : List Change} {members : Finset Nat}
    (member : index ∈ membersAfter members changes) :
    index ∈ members ∨ .insert index ∈ changes := by
  induction changes generalizing members with
  | nil => exact .inl member
  | cons change rest ih =>
      rcases ih member with before | later
      · cases change with
        | insert other =>
            rcases Finset.mem_insert.mp before with rfl | before
            · exact .inr List.mem_cons_self
            · exact .inl before
        | erase other => exact .inl (Finset.mem_of_mem_erase before)
        | clear => cases before
      · exact .inr (List.mem_cons_of_mem change later)

/-- A change that has nothing to do with an index leaves it as it is. -/
theorem mem_apply_of_not_concerns {index : Nat} {change : Change}
    (other : change.concerns index = false) (members : Finset Nat) :
    index ∈ change.apply members ↔ index ∈ members := by
  cases change with
  | insert place =>
      have different : index ≠ place := fun same => of_decide_eq_false other same.symm
      simp [Change.apply, different]
  | erase place =>
      have different : index ≠ place := fun same => of_decide_eq_false other same.symm
      simp [Change.apply, different]
  | clear => cases other

/-- A change that has to do with an index decides about it by whether it is a member before. -/
theorem mem_apply_congr {index : Nat} {left right : Finset Nat}
    (same : index ∈ left ↔ index ∈ right) (change : Change) :
    index ∈ change.apply left ↔ index ∈ change.apply right := by
  cases change with
  | insert other => simp [Change.apply, same]
  | erase other => simp [Change.apply, same]
  | clear => exact Iff.rfl

theorem telling_congr {index : Nat} {left right : Finset Nat}
    (same : index ∈ left ↔ index ∈ right) {change : Change}
    (concerned : change.concerns index = true) :
    change.telling left = change.telling right := by
  cases change with
  | insert place =>
      obtain rfl : place = index := of_decide_eq_true concerned
      simp [Change.telling, same]
  | erase place =>
      obtain rfl : place = index := of_decide_eq_true concerned
      simp [Change.telling, same]
  | clear => rfl

theorem mem_membersAfter_filter {index : Nat} (changes : List Change) {left right : Finset Nat}
    (same : index ∈ left ↔ index ∈ right) :
    index ∈ membersAfter left changes ↔
      index ∈ membersAfter right (changes.filter (Change.concerns index)) := by
  induction changes generalizing left right with
  | nil => exact same
  | cons change rest ih =>
      cases concerned : change.concerns index with
      | true =>
          rw [List.filter_cons_of_pos concerned]
          exact ih (mem_apply_congr same change)
      | false =>
          rw [List.filter_cons_of_neg (by simp [concerned])]
          exact ih ((mem_apply_of_not_concerns concerned left).trans same)

/-- A change to an index of one word does not touch another. -/
theorem wordAt_step_of_apart {change : Change} {index number : Nat}
    (concerned : change.concerns index = true) (other : change ≠ .clear)
    (apart : index / wordWidth ≠ number) (set : IndexSet) :
    (set.step change).2.wordAt number = set.wordAt number := by
  cases change with
  | insert place =>
      obtain rfl : place = index := of_decide_eq_true concerned
      exact (wordAt_insert set place number).trans (if_neg apart)
  | erase place =>
      obtain rfl : place = index := of_decide_eq_true concerned
      by_cases member : set.contains place = true
      · exact (wordAt_erase member number).trans (if_neg apart)
      · rw [step, erase, if_neg member]
  | clear => exact absurd rfl other

/-- What can be relied on about an index set with a history. -/
structure IsFiniteSet (changes : List Change) : Prop where
  tellings_eq : (run {} changes).1 = tellings ∅ changes
  answersAs : (run {} changes).2.AnswersAs (membersAfter ∅ changes)
  /-- A walk over the members can step past each of them. -/
  addressable : ∀ index ∈ (run {} changes).2.toList, index + 1 < Address.limit
  /-- An index is as the changes make it that concern it. -/
  apart : ∀ index,
    let alone := (run {} (changes.filter (Change.concerns index))).2
    (run {} changes).2.contains index = alone.contains index ∧
      ∀ change, change.concerns index = true →
        ((run {} changes).2.step change).1 = (alone.step change).1
  /-- A change to an index of one word does not touch another. -/
  word_apart : ∀ change index number, change.concerns index = true → change ≠ .clear →
    index / wordWidth ≠ number →
      ((run {} changes).2.step change).2.wordAt number = (run {} changes).2.wordAt number
  /-- Clearing makes a set like a new one that keeps its words. -/
  renewed : ∀ later,
    ((run {} changes).2.clear.run later).1 = (run {} later).1 ∧
      Alike ((run {} changes).2.clear.run later).2 (run {} later).2
  words_kept : (run {} changes).2.clear.words.size = (run {} changes).2.words.size

theorem apart_of_filter (changes : List Change) (index : Nat) :
    let alone := (run {} (changes.filter (Change.concerns index))).2
    (run {} changes).2.contains index = alone.contains index ∧
      ∀ change, change.concerns index = true →
        ((run {} changes).2.step change).1 = (alone.step change).1 := by
  have represents := represents_run changes
  have ofAlone := represents_run (changes.filter (Change.concerns index))
  have same : index ∈ membersAfter ∅ changes ↔
      index ∈ membersAfter ∅ (changes.filter (Change.concerns index)) :=
    mem_membersAfter_filter changes Iff.rfl
  constructor
  · rw [represents.contains_eq, ofAlone.contains_eq]
    exact decide_eq_decide.mpr same
  · intro change concerned
    rw [(represents.step change).1, (ofAlone.step change).1]
    exact telling_congr same concerned

theorem renewed_of_clear (set : IndexSet) (later : List Change) :
    (set.clear.run later).1 = (run {} later).1 ∧
      Alike (set.clear.run later).2 (run {} later).2 := by
  obtain ⟨tellings, represents⟩ := (Represents.clear set).run later
  obtain ⟨tellingsOfNew, representsOfNew⟩ := Represents.empty.run later
  exact ⟨tellings.trans tellingsOfNew.symm, represents.alike representsOfNew⟩

theorem addressable_of_changes {changes : List Change}
    (addressable : ∀ change ∈ changes, change.isAddressable = true) :
    ∀ index ∈ (run {} changes).2.toList, index + 1 < Address.limit := by
  intro index listed
  have member := ((represents_run changes).mem_iff index).mp (mem_toList_iff.mp listed)
  rcases mem_membersAfter member with none | inserted
  · cases none
  · exact of_decide_eq_true (addressable _ inserted)

/-- Whatever is inserted and erased and however often it is cleared, an index set is the finite
set of its members. -/
theorem every_history_is_finite_set (changes : List Change)
    (addressable : ∀ change ∈ changes, change.isAddressable = true) : IsFiniteSet changes where
  tellings_eq := (Represents.empty.run changes).1
  answersAs := (represents_run changes).answersAs
  addressable := addressable_of_changes addressable
  apart := apart_of_filter changes
  word_apart change index number concerned other apart :=
    wordAt_step_of_apart concerned other apart _
  renewed := renewed_of_clear _
  words_kept := by simp [clear]

/-- Indices on both sides of the end of a word, redundant changes, clearing, and the last index
that can be stepped past. -/
theorem boundary_history_is_finite_set :
    let changes : List Change :=
      [.insert 63, .insert 64, .insert 64, .erase 63, .erase 63, .clear, .insert 127, .insert 128,
        .erase 128, .insert (Address.limit - 2)]
    (∀ change ∈ changes, change.isAddressable = true) ∧ IsFiniteSet changes := by
  intro changes
  have addressable : ∀ change ∈ changes, change.isAddressable = true := by decide
  exact ⟨addressable, every_history_is_finite_set changes addressable⟩

end RecordPool.IndexSet
