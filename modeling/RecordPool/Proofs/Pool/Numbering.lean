import RecordPool.Fixtures
import RecordPool.Proofs.DenseIds
import RecordPool.Proofs.Pool.Calls
import RecordPool.Proofs.Pool.Opening

/-!
# Numberings of live records

A numbering of the live records of a pool gives every one of them its rank: the number of a
record is how many live records have a smaller id.  A numbering is made of the ids at one
moment.  Records that come and go afterwards, and whatever else is done to the pool, do not
show in it.
-/

namespace RecordPool.Pool

variable {σ : Type}

/-- How many live records have a smaller id. -/
def rank (pool : Pool σ) (id : Nat) : Nat :=
  {other ∈ Finset.range id | pool.isLive other = true}.card

/-- The answers of a numbering of the records that are live in a pool. -/
structure NumbersLive (pool : Pool σ) (numbering : DenseIds) : Prop where
  dense : numbering.IsDense pool.liveIds
  count_eq : numbering.count = pool.liveCount
  isSome_number? : ∀ id, (numbering.number? id).isSome = true ↔ pool.isLive id = true
  number_eq_rank : ∀ id number, numbering.number? id = some number → number = pool.rank id
  lt_iff : ∀ left right leftNumber rightNumber, numbering.number? left = some leftNumber →
    numbering.number? right = some rightNumber → (left < right ↔ leftNumber < rightNumber)

/-- In an ascending list the smaller members come first. -/
theorem mem_take_idxOf_of_ascending {ids : List Nat} (ascending : ids.Pairwise (· < ·)) {id : Nat}
    (member : id ∈ ids) (other : Nat) :
    other ∈ ids.take (ids.idxOf id) ↔ other ∈ ids ∧ other < id := by
  obtain ⟨smaller, larger, rfl⟩ := List.append_of_mem member
  obtain ⟨-, ofLarger, ofSmaller⟩ := List.pairwise_append.mp ascending
  have first : id ∉ smaller := fun twice =>
    Nat.lt_irrefl id (ofSmaller id twice id List.mem_cons_self)
  rw [List.idxOf_append_of_notMem first, List.idxOf_cons_self, Nat.add_zero, List.take_left,
    List.mem_append, List.mem_cons]
  constructor
  · intro before
    exact ⟨.inl before, ofSmaller other before id List.mem_cons_self⟩
  · rintro ⟨before | rfl | after, less⟩
    · exact before
    · exact absurd less (Nat.lt_irrefl other)
    · exact absurd less (Nat.lt_asymm (List.rel_of_pairwise_cons ofLarger after))

theorem rank_lt_rank {pool : Pool σ} {left right : Nat} (isLive : pool.isLive left = true)
    (less : left < right) : pool.rank left < pool.rank right := by
  apply Finset.card_lt_card
  rw [Finset.ssubset_iff_of_subset]
  · refine ⟨left, by simp [less, isLive], by simp⟩
  · intro other among
    rw [Finset.mem_filter, Finset.mem_range] at among ⊢
    exact ⟨Nat.lt_trans among.1 less, among.2⟩

theorem number?_ofPool_rank {pool : Pool σ} {id number : Nat}
    (found : (DenseIds.ofPool pool).number? id = some number) :
    pool.isLive id = true ∧ number = pool.rank id := by
  have dense : (DenseIds.ofPool pool).IsDense pool.liveIds :=
    (DenseIds.numbers_ofIds pool.liveIds).isDense
  have member : id ∈ pool.liveIds := by
    rw [← dense.isSome_number?, found]
    rfl
  have ascending : pool.liveIds.Pairwise (· < ·) := IndexSet.pairwise_toList pool.slab.live
  refine ⟨mem_liveIds_iff.mp member, (dense.first_occurrence id number found).trans ?_⟩
  unfold rank
  congr 1
  ext other
  rw [List.mem_toFinset, mem_take_idxOf_of_ascending ascending member, Finset.mem_filter,
    Finset.mem_range, mem_liveIds_iff, and_comm]

theorem numbersLive_ofPool [Store σ] [LawfulStore σ] {pool : Pool σ} {live : Finset Nat}
    (orderly : pool.slab.Orderly live) : pool.NumbersLive (.ofPool pool) where
  dense := (DenseIds.numbers_ofIds pool.liveIds).isDense
  count_eq := DenseIds.count_eq_liveCount orderly
  isSome_number? id :=
    ((DenseIds.numbers_ofIds pool.liveIds).isDense.isSome_number? id).trans mem_liveIds_iff
  number_eq_rank id number found := (number?_ofPool_rank found).2
  lt_iff left right leftNumber rightNumber leftFound rightFound := by
    obtain ⟨leftLive, rfl⟩ := number?_ofPool_rank leftFound
    obtain ⟨rightLive, rfl⟩ := number?_ofPool_rank rightFound
    constructor
    · exact rank_lt_rank leftLive
    · intro ranked
      by_contra notLess
      rcases Nat.eq_or_lt_of_not_lt notLess with rfl | greater
      · exact Nat.lt_irrefl _ ranked
      · exact Nat.lt_asymm ranked (rank_lt_rank rightLive greater)

/-- What can be asked of a pool while numberings of its records are kept. -/
inductive Numbered.Request where
  | command (command : Command)
  /-- Numbers the live records. -/
  | number

/-- A pool with the numberings that were made of it. -/
structure Numbered (σ : Type) where
  pool : Pool σ
  /-- The numberings in the order in which they were made. -/
  numberings : List DenseIds

namespace Numbered

variable [Store σ]

/-- Carries out a request. -/
def step (numbered : Numbered σ) : Request → Numbered σ
  | .command command => { numbered with pool := (numbered.pool.step command).2 }
  | .number => { numbered with numberings := numbered.numberings ++ [.ofPool numbered.pool] }

/-- Carries out requests in order. -/
def run (numbered : Numbered σ) (requests : List Request) : Numbered σ :=
  requests.foldl step numbered

/-- A numbering that was made stays in its place. -/
theorem numberings_prefix_run (numbered : Numbered σ) (requests : List Request) :
    numbered.numberings <+: (numbered.run requests).numberings := by
  induction requests generalizing numbered with
  | nil => exact List.prefix_rfl
  | cons request rest ih =>
      have kept : numbered.numberings <+: (numbered.step request).numberings := by
        cases request with
        | command command => exact List.prefix_rfl
        | number => exact List.prefix_append _ _
      exact kept.trans (ih (numbered.step request))

theorem run_orderly [LawfulStore σ] {numbered : Numbered σ} {live : Finset Nat}
    (orderly : numbered.pool.slab.Orderly live) (requests : List Request) :
    ∃ live', (numbered.run requests).pool.slab.Orderly live' := by
  induction requests generalizing numbered live with
  | nil => exact ⟨live, orderly⟩
  | cons request rest ih =>
      cases request with
      | command command =>
          rcases step_orderly orderly command with ⟨_, orderlyAfter⟩
          exact ih orderlyAfter
      | number => exact ih orderly

/-- What was numbered at a moment is found numbered so after whatever is asked later. -/
theorem getElem?_numberings (numbered : Numbered σ) (earlier later : List Request) :
    (numbered.run (earlier ++ .number :: later)).numberings[
        (numbered.run earlier).numberings.length]? =
      some (.ofPool (numbered.run earlier).pool) := by
  obtain ⟨others, kept⟩ := numberings_prefix_run ((numbered.run earlier).step .number) later
  have parts : numbered.run (earlier ++ .number :: later) =
      ((numbered.run earlier).step .number).run later := List.foldl_append
  rw [parts, ← kept, List.getElem?_append_left]
  · exact List.getElem?_concat_length
  · simp [step]

end Numbered

/-- Ids in any order are numbered densely, and so are the records of every pool at every time,
whatever becomes of the pool later. -/
theorem all_number_densely :
    (∀ ids : List Nat, (DenseIds.ofIds ids).IsDense ids) ∧
      OfEveryKind fun _ _ _ pool => ∀ earlier later : List Numbered.Request,
        let before := (Numbered.mk pool []).run earlier
        let after := (Numbered.mk pool []).run (earlier ++ .number :: later)
        after.numberings[before.numberings.length]? = some (.ofPool before.pool) ∧
          before.pool.NumbersLive (.ofPool before.pool) := by
  constructor
  · intro ids
    exact (DenseIds.numbers_ofIds ids).isDense
  · apply ofEveryKind
    intro σ _ _ id layout store config sound _ earlier later
    have orderly : (Numbered.mk (blank id layout store config) []).pool.slab.Orderly ∅ :=
      orderly_blank sound id layout config
    rcases Numbered.run_orderly orderly earlier with ⟨live, orderlyThen⟩
    exact ⟨Numbered.getElem?_numberings _ earlier later, numbersLive_ofPool orderlyThen⟩

/-- Records numbered over two holes; the numbering outlasts the deletion of one of them and the
clearing of the pool. -/
theorem holey_pool_numbers_densely :
    ∃ layout pool, Fixture.int.layout = .ok layout ∧ ofConfig ⟨0⟩ layout {} = .ok pool ∧
      let create : Numbered.Request := .command (.create (.unbound ⟨0⟩))
      let earlier := List.replicate 6 create ++ [.command (.deleteId 0), .command (.deleteId 3)]
      let before := (Numbered.mk pool []).run earlier
      let after := (Numbered.mk pool []).run
        (earlier ++ .number :: [.command (.deleteId 5), create, .command .clear])
      before.pool.liveIds = [1, 2, 4, 5] ∧ after.pool.liveIds = [] ∧
        after.numberings[before.numberings.length]? = some (.ofPool before.pool) ∧
        before.pool.NumbersLive (.ofPool before.pool) := by
  have opened : ∃ layout pool, Fixture.int.layout = .ok layout ∧
      ofConfig ⟨0⟩ layout {} = .ok pool ∧
      let create : Numbered.Request := .command (.create (.unbound ⟨0⟩))
      let earlier := List.replicate 6 create ++ [.command (.deleteId 0), .command (.deleteId 3)]
      ((Numbered.mk pool []).run earlier).pool.liveIds = [1, 2, 4, 5] ∧
        ((Numbered.mk pool []).run (earlier ++ .number ::
          [.command (.deleteId 5), create, .command .clear])).pool.liveIds = [] :=
    ⟨_, _, rfl, rfl, by decide +kernel, by decide +kernel⟩
  rcases opened with ⟨layout, pool, built, opened, before, after⟩
  exact ⟨layout, pool, built, opened, before, after,
    all_number_densely.2.1 _ _ _ _ _ opened _ _⟩

end RecordPool.Pool
