import Std.Data.ExtTreeMap

/-!
# Sparse sequences

A sparse sequence has a value at every natural number, and the same one, its usual
value, at almost all of them.  Only the other values are kept, so that a sequence
takes no room where nothing was written.  Runs of values are copied at the cost of what
is kept of them (`Sparse.copyRun`).  Sequences with the same values are equal
(`Sparse.ext`).
-/

namespace RecordPool

/-- A value for every index, of which only those other than `usual` are kept. -/
structure Sparse (α : Type) (usual : α) where
  kept : Std.ExtTreeMap Nat α
  kept_ne_usual : ∀ index : Nat, kept[index]? ≠ some usual

namespace Sparse

variable {α : Type} {usual : α}

/-- The sequence with the usual value everywhere. -/
def blank : Sparse α usual where
  kept := ∅
  kept_ne_usual := by simp

/-- The value at an index. -/
def get (sequence : Sparse α usual) (index : Nat) : α :=
  sequence.kept.getD index usual

/-- The sequence with another value at an index. -/
def set [DecidableEq α] (sequence : Sparse α usual) (index : Nat) (value : α) :
    Sparse α usual :=
  if same : value = usual then
    { kept := sequence.kept.erase index
      kept_ne_usual := fun other => by
        rw [Std.ExtTreeMap.getElem?_erase]
        split
        · simp
        · exact sequence.kept_ne_usual other }
  else
    { kept := sequence.kept.insert index value
      kept_ne_usual := fun other => by
        rw [Std.ExtTreeMap.getElem?_insert]
        split
        · simpa using same
        · exact sequence.kept_ne_usual other }

@[simp]
theorem get_blank (index : Nat) : (blank : Sparse α usual).get index = usual := by
  simp [get, blank]

/-- A value written is read at its index, and the others are as before. -/
theorem get_set [DecidableEq α] (sequence : Sparse α usual) (index other : Nat) (value : α) :
    (sequence.set index value).get other =
      if index = other then value else sequence.get other := by
  unfold set get
  split
  case isTrue same =>
    rw [Std.ExtTreeMap.getD_erase]
    simp [same]
  case isFalse => simp [Std.ExtTreeMap.getD_insert]

/-- The offsets in a run of `count` values from `start` at which other values than the
usual one are kept. -/
def keptWithin (sequence : Sparse α usual) (start count : Nat) : List Nat :=
  let inside := sequence.kept.keys.filter fun index => start ≤ index && index < start + count
  inside.map (· - start)

theorem mem_keptWithin {sequence : Sparse α usual} {start count offset : Nat}
    (inside : offset < count) (unusual : sequence.get (start + offset) ≠ usual) :
    offset ∈ sequence.keptWithin start count := by
  have kept : start + offset ∈ sequence.kept :=
    Decidable.byContradiction fun absent => unusual (Std.ExtTreeMap.getD_eq_fallback absent)
  refine List.mem_map.mpr ⟨start + offset, List.mem_filter.mpr ⟨?_, ?_⟩, Nat.add_sub_cancel_left ..⟩
  · exact Std.ExtTreeMap.mem_keys.mpr kept
  · simp only [Bool.and_eq_true, decide_eq_true_eq]
    omega

theorem lt_of_mem_keptWithin {sequence : Sparse α usual} {start count offset : Nat}
    (member : offset ∈ sequence.keptWithin start count) : offset < count := by
  obtain ⟨index, kept, rfl⟩ := List.mem_map.mp member
  have inside := (List.mem_filter.mp kept).2
  simp only [Bool.and_eq_true, decide_eq_true_eq] at inside
  omega

/-- The offsets to visit when `count` values from `source` of one sequence are written from
`place` on over those of another one: all of a short run, and of a long one those at which
something is kept. -/
def runOffsets (target : Sparse α usual) (place : Nat) (origin : Sparse α usual)
    (source count : Nat) : List Nat :=
  if count ≤ target.kept.size + origin.kept.size then
    List.range count
  else
    target.keptWithin place count ++ origin.keptWithin source count

theorem lt_of_mem_runOffsets {target origin : Sparse α usual} {place source count offset : Nat}
    (member : offset ∈ target.runOffsets place origin source count) : offset < count := by
  unfold runOffsets at member
  split at member
  case isTrue => exact List.mem_range.mp member
  case isFalse =>
      exact (List.mem_append.mp member).elim lt_of_mem_keptWithin lt_of_mem_keptWithin

/-- At an offset that is not visited both sequences have their usual value. -/
theorem get_eq_of_notMem_runOffsets [DecidableEq α] {target origin : Sparse α usual}
    {place source count offset : Nat} (inside : offset < count)
    (skipped : offset ∉ target.runOffsets place origin source count) :
    target.get (place + offset) = origin.get (source + offset) := by
  unfold runOffsets at skipped
  split at skipped
  case isTrue => exact absurd (List.mem_range.mpr inside) skipped
  case isFalse =>
      rw [List.mem_append, not_or] at skipped
      have ofTarget := Decidable.of_not_not (mt (mem_keptWithin inside) skipped.1)
      have ofOrigin := Decidable.of_not_not (mt (mem_keptWithin inside) skipped.2)
      exact ofTarget.trans ofOrigin.symm

section Copying

variable [DecidableEq α] (target origin : Sparse α usual) (place source : Nat)

/-- The sequence with the values of another one at some offsets. -/
def copyAt (offsets : List Nat) : Sparse α usual :=
  offsets.foldl
    (fun copied offset => copied.set (place + offset) (origin.get (source + offset))) target

/-- The sequence with `count` values of another one, from `source` on there, written from
`place` on. -/
def copyRun (count : Nat) : Sparse α usual :=
  target.copyAt origin place source (target.runOffsets place origin source count)

theorem get_copyAt (offsets : List Nat) (index : Nat) :
    (target.copyAt origin place source offsets).get index =
      if place ≤ index ∧ index - place ∈ offsets then origin.get (source + (index - place))
      else target.get index := by
  induction offsets generalizing target with
  | nil => simp [copyAt]
  | cons offset rest ih =>
      rw [copyAt, List.foldl_cons, ← copyAt, ih, get_set]
      by_cases here : place + offset = index
      · have position : index - place = offset := by omega
        have first : place ≤ index ∧ index - place ∈ offset :: rest :=
          ⟨by omega, position ▸ List.mem_cons_self⟩
        rw [if_pos first, if_pos here, position, ite_self]
      · have elsewhere : place ≤ index → index - place ≠ offset := by omega
        rw [if_neg here]
        congr 1
        rw [List.mem_cons, eq_iff_iff]
        constructor
        · exact fun later => ⟨later.1, .inr later.2⟩
        · exact fun visited => ⟨visited.1, visited.2.resolve_left (elsewhere visited.1)⟩

/-- A run copied is read at its place, and the other values are as before. -/
theorem get_copyRun (count index : Nat) :
    (target.copyRun origin place source count).get index =
      if place ≤ index ∧ index < place + count then origin.get (source + (index - place))
      else target.get index := by
  rw [copyRun, get_copyAt]
  by_cases visited : place ≤ index ∧ index - place ∈ target.runOffsets place origin source count
  · have inside := lt_of_mem_runOffsets visited.2
    rw [if_pos visited, if_pos ⟨visited.1, by omega⟩]
  · rw [if_neg visited]
    by_cases inside : place ≤ index ∧ index < place + count
    · obtain ⟨offset, rfl⟩ := Nat.exists_eq_add_of_le inside.1
      rw [if_pos inside, Nat.add_sub_cancel_left]
      rw [Nat.add_sub_cancel_left] at visited
      exact get_eq_of_notMem_runOffsets (by omega) fun member => visited ⟨inside.1, member⟩
    · rw [if_neg inside]

end Copying

/-- Sequences with the same values are equal. -/
@[ext]
theorem ext {left right : Sparse α usual} (same : ∀ index, left.get index = right.get index) :
    left = right := by
  obtain ⟨leftKept, left_ne_usual⟩ := left
  obtain ⟨rightKept, right_ne_usual⟩ := right
  congr 1
  apply Std.ExtTreeMap.ext_getElem?
  intro index
  have value := same index
  simp only [get, Std.ExtTreeMap.getD_eq_getD_getElem?] at value
  have left_unusual := left_ne_usual index
  have right_unusual := right_ne_usual index
  cases inLeft : leftKept[index]? <;> cases inRight : rightKept[index]? <;> simp_all

instance [DecidableEq α] : DecidableEq (Sparse α usual) := fun left right =>
  if same : left.kept = right.kept then
    .isTrue (by cases left; cases right; cases same; rfl)
  else
    .isFalse fun equal => same (congrArg kept equal)

end Sparse

end RecordPool
