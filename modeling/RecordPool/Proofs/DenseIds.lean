import RecordPool.DenseIds
import RecordPool.Proofs.Pool.Structure
import Mathlib.Data.List.Induction

/-!
# Dense numbers of ids

The distinct ids of a list are numbered without a hole, in the order in which they first come
up; an id and its number find each other.  Ids that are all different are numbered by their
places in the list, and the live records of a pool therefore in ascending order.
-/

namespace RecordPool.DenseIds

/-- The distinct ids of a list are in the numbering, each after those that come up before it. -/
structure Numbers (numbering : DenseIds) (ids : List Nat) : Prop where
  nodup : numbering.ids.toList.Nodup
  mem_iff : ∀ id, id ∈ numbering.ids.toList ↔ id ∈ ids
  place_eq : ∀ id ∈ ids,
    numbering.ids.toList.idxOf id = (ids.take (ids.idxOf id)).toFinset.card

theorem insert_of_known {numbering : DenseIds} {id : Nat} (known : id ∈ numbering.ids.toList) :
    numbering.insert id = numbering := by
  rw [Array.mem_toList_iff] at known
  simp [insert, known]

theorem toList_insert_of_new {numbering : DenseIds} {id : Nat}
    (new : id ∉ numbering.ids.toList) :
    (numbering.insert id).ids.toList = numbering.ids.toList ++ [id] := by
  rw [Array.mem_toList_iff] at new
  simp [insert, new]

namespace Numbers

variable {numbering : DenseIds} {ids : List Nat}

/-- What comes after its first occurrence does not matter to an id. -/
theorem take_idxOf_append {id : Nat} (known : id ∈ ids) (later : List Nat) :
    (ids ++ later).take ((ids ++ later).idxOf id) = ids.take (ids.idxOf id) := by
  rw [List.idxOf_append_of_mem known, List.take_append_of_le_length]
  exact List.idxOf_le_length

theorem insert_known (numbers : Numbers numbering ids) {id : Nat} (known : id ∈ ids) :
    Numbers (numbering.insert id) (ids ++ [id]) := by
  rw [insert_of_known ((numbers.mem_iff id).mpr known)]
  have same : ∀ other, other ∈ ids ++ [id] ↔ other ∈ ids := by
    intro other
    rw [List.mem_append, List.mem_singleton, or_iff_left_of_imp]
    rintro rfl
    exact known
  exact {
    nodup := numbers.nodup
    mem_iff := fun other => (numbers.mem_iff other).trans (same other).symm
    place_eq := fun other among => by
      rw [same] at among
      rw [take_idxOf_append among]
      exact numbers.place_eq other among }

theorem insert_new (numbers : Numbers numbering ids) {id : Nat} (new : id ∉ ids) :
    Numbers (numbering.insert id) (ids ++ [id]) := by
  have unlisted : id ∉ numbering.ids.toList := fun listed => new ((numbers.mem_iff id).mp listed)
  have count : ids.toFinset.card = numbering.ids.toList.length := by
    rw [← List.toFinset_card_of_nodup numbers.nodup]
    congr 1
    ext other
    rw [List.mem_toFinset, List.mem_toFinset, numbers.mem_iff]
  constructor
  case nodup =>
    rw [toList_insert_of_new unlisted, List.nodup_append_comm, List.singleton_append,
      List.nodup_cons]
    exact ⟨unlisted, numbers.nodup⟩
  case mem_iff =>
    intro other
    rw [toList_insert_of_new unlisted, List.mem_append, List.mem_append, numbers.mem_iff]
  case place_eq =>
    intro other among
    rw [toList_insert_of_new unlisted]
    rcases List.mem_append.mp among with before | last
    · rw [take_idxOf_append before,
        List.idxOf_append_of_mem ((numbers.mem_iff other).mpr before)]
      exact numbers.place_eq other before
    · -- All ids that came up so far come up before a new one.
      obtain rfl : other = id := List.mem_singleton.mp last
      rw [List.idxOf_append_of_notMem unlisted, List.idxOf_append_of_notMem new,
        List.idxOf_cons_self, Nat.add_zero, Nat.add_zero, List.take_left, count]

theorem insert (numbers : Numbers numbering ids) (id : Nat) :
    Numbers (numbering.insert id) (ids ++ [id]) := by
  by_cases known : id ∈ ids
  · exact numbers.insert_known known
  · exact numbers.insert_new known

end Numbers

theorem numbers_ofIds (ids : List Nat) : Numbers (ofIds ids) ids := by
  induction ids using List.reverseRecOn with
  | nil => exact ⟨List.nodup_nil, fun _ => Iff.rfl, fun _ none => absurd none List.not_mem_nil⟩
  | append_singleton earlier id ih =>
      rw [ofIds, List.foldl_append]
      exact ih.insert id

/-- The answers of a numbering of the distinct ids of a list. -/
structure IsDense (numbering : DenseIds) (ids : List Nat) : Prop where
  count_eq : numbering.count = ids.toFinset.card
  isSome_id? : ∀ number, (numbering.id? number).isSome = true ↔ number < numbering.count
  isSome_number? : ∀ id, (numbering.number? id).isSome = true ↔ id ∈ ids
  number?_eq_some_iff : ∀ id number,
    numbering.number? id = some number ↔ numbering.id? number = some id
  /-- The number of an id is how many others come up before it. -/
  first_occurrence : ∀ id number, numbering.number? id = some number →
    number = (ids.take (ids.idxOf id)).toFinset.card
  toList_eq : ∀ number,
    numbering.toList[number]? = (numbering.id? number).map fun id => (number, id)

theorem number?_eq (numbering : DenseIds) (id : Nat) :
    numbering.number? id = numbering.ids.toList.idxOf? id := by
  rw [number?, ← List.idxOf?_toArray, Array.toArray_toList]

theorem id?_eq (numbering : DenseIds) (number : Nat) :
    numbering.id? number = numbering.ids.toList[number]? :=
  Array.getElem?_toList.symm

namespace Numbers

variable {numbering : DenseIds} {ids : List Nat}

theorem number?_eq_some_iff (numbers : Numbers numbering ids) (id number : Nat) :
    numbering.number? id = some number ↔ numbering.id? number = some id := by
  rw [number?_eq, id?_eq, List.idxOf?_eq_some_iff, List.getElem?_eq_some_iff]
  constructor
  · rintro ⟨inside, here, -⟩
    exact ⟨inside, here⟩
  · rintro ⟨inside, here⟩
    refine ⟨inside, here, fun earlier before there => ?_⟩
    have same := (numbers.nodup.getElem_inj_iff).mp (there.trans here.symm)
    exact absurd same (Nat.ne_of_lt before)

theorem isDense (numbers : Numbers numbering ids) : IsDense numbering ids where
  count_eq := by
    rw [count, ← Array.length_toList, ← List.toFinset_card_of_nodup numbers.nodup]
    congr 1
    ext id
    rw [List.mem_toFinset, List.mem_toFinset, numbers.mem_iff]
  isSome_id? number := by
    rw [id?, isSome_getElem?, count]
  isSome_number? id := by
    rw [number?_eq, List.isSome_idxOf?, numbers.mem_iff]
  number?_eq_some_iff := numbers.number?_eq_some_iff
  first_occurrence id number found := by
    rw [number?_eq] at found
    have listed : id ∈ numbering.ids.toList := by
      rw [← List.isSome_idxOf?, found]
      rfl
    rw [← numbers.place_eq id ((numbers.mem_iff id).mp listed), List.idxOf_eq_getD_idxOf?, found]
    rfl
  toList_eq number := by
    rw [toList, id?_eq, List.getElem?_map, List.getElem?_zipIdx]
    cases numbering.ids.toList[number]? with
    | none => rfl
    | some id => simp

end Numbers

theorem toList_foldl_insert {ids : List Nat} {numbering : DenseIds}
    (nodup : (numbering.ids.toList ++ ids).Nodup) :
    (ids.foldl insert numbering).ids.toList = numbering.ids.toList ++ ids := by
  induction ids generalizing numbering with
  | nil => exact (List.append_nil _).symm
  | cons id rest ih =>
      have new : id ∉ numbering.ids.toList := by
        intro known
        exact (List.nodup_append.mp nodup).2.2 id known id List.mem_cons_self rfl
      rw [List.append_cons, ← toList_insert_of_new new] at nodup ⊢
      exact ih nodup

theorem toList_ofIds {ids : List Nat} (nodup : ids.Nodup) : (ofIds ids).ids.toList = ids :=
  toList_foldl_insert (by simpa using nodup)

variable {σ : Type} {pool : Pool σ}

theorem toList_ofPool (pool : Pool σ) : (ofPool pool).ids.toList = pool.liveIds :=
  toList_ofIds ((IndexSet.pairwise_toList pool.slab.live).imp Nat.ne_of_lt)

theorem id?_ofPool (pool : Pool σ) (number : Nat) :
    (ofPool pool).id? number = pool.liveIds[number]? := by
  rw [id?, ← Array.getElem?_toList, toList_ofPool]

theorem count_ofPool (pool : Pool σ) : (ofPool pool).count = pool.liveIds.length := by
  rw [count, ← Array.length_toList, toList_ofPool]

/-- There are as many numbers as live records. -/
theorem count_eq_liveCount [Store σ] [LawfulStore σ] {live : Finset Nat}
    (orderly : pool.slab.Orderly live) : (ofPool pool).count = pool.liveCount := by
  rw [count_ofPool, Pool.liveIds_eq orderly, Finset.length_sort, Pool.liveCount_eq orderly]

end RecordPool.DenseIds
