import RecordPool.Proofs.Computation
import RecordPool.Store.Chain
import Mathlib.Algebra.Order.Floor.Div

/-!
# Lengths of sub-arrays

How many sub-arrays a number of elements takes, and how many elements each of them has.
A chain reckons both in machine words.  Nothing overflows there as long as the number of
elements itself fits in a word.
-/

namespace RecordPool.Chain

variable {σ : Type} {chain : Chain σ} {count more array : Nat}

/-- The number of sub-arrays that a number of elements takes. -/
def arraysFor (chain : Chain σ) (count : Nat) : Nat :=
  (count + chain.arrayLength - 1) / chain.arrayLength

/-- The number of elements of a sub-array when there are `count` in all. -/
def target (chain : Chain σ) (count array : Nat) : Nat :=
  min chain.arrayLength (count - array * chain.arrayLength)

theorem arraysFor_eq_ceilDiv (chain : Chain σ) (count : Nat) :
    chain.arraysFor count = count ⌈/⌉ chain.arrayLength :=
  rfl

/-- The sub-arrays that a number of elements takes are those that start below it. -/
theorem lt_arraysFor_iff (positive : 0 < chain.arrayLength) :
    array < chain.arraysFor count ↔ array * chain.arrayLength < count := by
  rw [arraysFor_eq_ceilDiv, ← Nat.not_le, ← Nat.not_le, ceilDiv_le_iff_le_mul positive,
    Nat.mul_comm]

/-- There is room for the elements in the sub-arrays that they take. -/
theorem le_arraysFor_mul (positive : 0 < chain.arrayLength) :
    count ≤ chain.arraysFor count * chain.arrayLength :=
  Nat.le_of_not_lt fun more => Nat.lt_irrefl _ ((lt_arraysFor_iff positive).mpr more)

theorem target_of_arraysFor_le (positive : 0 < chain.arrayLength)
    (past : chain.arraysFor count ≤ array) : chain.target count array = 0 := by
  have start : ¬ array * chain.arrayLength < count :=
    fun below => Nat.not_lt.mpr past ((lt_arraysFor_iff positive).mpr below)
  unfold target
  omega

theorem target_mono (larger : count ≤ more) (array : Nat) :
    chain.target count array ≤ chain.target more array := by
  unfold target
  omega

theorem arraysFor_mono (larger : count ≤ more) :
    chain.arraysFor count ≤ chain.arraysFor more :=
  Nat.div_le_div_right (by omega)

/-- The number of elements that a chain can address is one of a machine word. -/
theorem lt_limit_of_le_maxSize (within : count ≤ chain.maxSize) : count < Address.limit := by
  have positive : 0 < Address.limit := by decide
  unfold maxSize at within
  omega

theorem arraysInWords_eq (positive : 0 < chain.arrayLength) (fits : count < Address.limit) :
    chain.arraysInWords count = .ok (chain.arraysFor count) := by
  have parts := Nat.div_add_mod' count chain.arrayLength
  have rest := Nat.mod_lt count positive
  have fewer := Nat.div_le_self count chain.arrayLength
  unfold arraysInWords
  by_cases whole : count % chain.arrayLength = 0
  · have arrays : chain.arraysFor count = count / chain.arrayLength := by
      apply Nat.div_eq_of_lt_le
      · omega
      · rw [Nat.succ_mul]
        omega
    rw [if_pos whole, arrays]
  · have arrays : chain.arraysFor count = count / chain.arrayLength + 1 := by
      apply Nat.div_eq_of_lt_le
      · rw [Nat.succ_mul]
        omega
      · rw [Nat.succ_mul, Nat.succ_mul]
        omega
    have least : count / chain.arrayLength + 1 ≤ count := by
      have start : count / chain.arrayLength ≤
          count / chain.arrayLength * chain.arrayLength := Nat.le_mul_of_pos_right _ positive
      omega
    rw [if_neg whole, arrays, Address.check_of_lt (by omega)]

/-- Nothing overflows in the walk over the sub-arrays. -/
theorem targetInWords_eq (positive : 0 < chain.arrayLength) (fits : count < Address.limit)
    (reached : array < chain.arraysFor count) :
    chain.targetInWords count (chain.arraysFor count) array =
      .ok (chain.target count array) := by
  have start := (lt_arraysFor_iff positive).mp reached
  have fewer : array ≤ array * chain.arrayLength := Nat.le_mul_of_pos_right _ positive
  simp only [targetInWords, except_ok_bind,
    Address.check_of_lt (show array + 1 < Address.limit by omega)]
  by_cases last : array + 1 < chain.arraysFor count
  · have full := (lt_arraysFor_iff positive).mp last
    rw [Nat.succ_mul] at full
    have whole : chain.target count array = chain.arrayLength := by
      unfold target
      omega
    rw [if_pos last, whole]
    rfl
  · have ending : ¬ (array + 1) * chain.arrayLength < count :=
      fun below => last ((lt_arraysFor_iff positive).mpr below)
    rw [Nat.succ_mul] at ending
    have rest : chain.target count array = count - array * chain.arrayLength := by
      unfold target
      omega
    have addressable : array * chain.arrayLength < Address.limit := Nat.lt_trans start fits
    simp only [if_neg last, Address.check_of_lt addressable, except_ok_bind,
      if_pos (Nat.le_of_lt start), rest]
    rfl

section Growing

variable [SubStore σ] {needed remaining : Nat}

/-- A step of the walk over the sub-arrays asks for the length that the sub-array is to have. -/
theorem growArrays_succ (positive : 0 < chain.arrayLength) (fits : count < Address.limit)
    (all : needed = chain.arraysFor count) (reached : array < needed) :
    growArrays count needed array (remaining + 1) chain =
      (growArray array (chain.target count array) >>= fun _ =>
        growArrays count needed (array + 1) remaining) chain := by
  subst all
  simp only [growArrays, bind_apply, get_apply, targetInWords_eq positive fits reached,
    orFault_ok_apply]

/-- A chain grows by a walk over its sub-arrays. -/
theorem resize_larger (positive : 0 < chain.arrayLength) (larger : ¬ count ≤ chain.size)
    (within : count ≤ chain.maxSize) :
    Chain.resize count chain =
      match growArrays count (chain.arraysFor count) 0 (chain.arraysFor count) chain with
      | .ok _ grown => .ok () { grown with size := count }
      | .error failure left => .error failure left := by
  have fits : count < Address.limit := lt_limit_of_le_maxSize within
  simp only [resize, bind_apply, get_apply, if_neg larger, if_neg (Nat.not_lt.mpr within),
    arraysInWords_eq positive fits, orFault_ok_apply]
  cases growArrays count (chain.arraysFor count) 0 (chain.arraysFor count) chain <;> rfl

theorem resize_within (smaller : count ≤ chain.size) :
    Chain.resize count chain = .ok () chain := by
  simp only [resize, bind_apply, get_apply, if_pos smaller, pure_apply]

theorem resize_beyond (larger : ¬ count ≤ chain.size) (beyond : chain.maxSize < count) :
    Chain.resize count chain =
      .error (.refused (.capacityExceeded count chain.maxSize)) chain := by
  simp only [resize, bind_apply, get_apply, if_neg larger, if_pos beyond, throw_apply]

end Growing

end RecordPool.Chain
