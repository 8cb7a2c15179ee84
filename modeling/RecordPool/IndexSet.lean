/-!
# Sets of indices

A set of natural numbers kept as the bits of 64-bit words, with the number of
its members beside them.  Words are added when an index beyond them is inserted
and never given back.

`IndexSet.nextFrom?` finds the smallest member from a starting point on; the
members in ascending order, `IndexSet.toList`, come from asking it again and
again.
-/

namespace RecordPool

/-- A set of indices. -/
structure IndexSet where
  /-- Bit `b` of word `w` stands for the index `64 * w + b`. -/
  words : Array UInt64 := #[]
  /-- The number of members. -/
  count : Nat := 0

namespace IndexSet

/-- The number of indices that one word stands for. -/
def wordWidth : Nat := 64

/-! ## Single words -/

/-- The word whose only set bit is the given one. -/
def bitMask (bit : Nat) : UInt64 :=
  1 <<< UInt64.ofNat bit

/-- Whether a bit of a word is set. -/
def hasBit (word : UInt64) (bit : Nat) : Bool :=
  word &&& bitMask bit != 0

/-- The word without its bits below a given one. -/
def bitsFrom (word : UInt64) (bit : Nat) : UInt64 :=
  word &&& ((~~~ 0) <<< UInt64.ofNat bit)

/-- The number of zeros below the lowest set bit of a word. -/
def trailingZeros (word : UInt64) : Nat :=
  word.toBitVec.ctz.toNat

theorem toBitVec_ne_zero {word : UInt64} (nonzero : word ≠ 0) : word.toBitVec ≠ 0#64 :=
  fun zero => nonzero (UInt64.toBitVec_inj.mp zero)

/-- The lowest set bit lies in the word. -/
theorem trailingZeros_lt {word : UInt64} (nonzero : word ≠ 0) :
    trailingZeros word < wordWidth :=
  BitVec.lt_of_getLsbD (BitVec.getLsbD_true_ctz_of_ne_zero (toBitVec_ne_zero nonzero))

theorem getLsbD_bitsFrom (word : UInt64) {start bit : Nat} (startInside : start < wordWidth)
    (inside : bit < wordWidth) :
    (bitsFrom word start).toBitVec.getLsbD bit =
      (decide (start ≤ bit) && word.toBitVec.getLsbD bit) := by
  have bound : bit < 64 := inside
  have small : start % 64 = start := Nat.mod_eq_of_lt startInside
  have ones : (~~~ 0 : UInt64).toBitVec = BitVec.allOnes 64 := rfl
  have amount : ((UInt64.ofNat start).toBitVec % 64).toNat = start := by simp [small]
  rw [bitsFrom, UInt64.toBitVec_and, UInt64.toBitVec_shiftLeft, ones, BitVec.getLsbD_and,
    BitVec.shiftLeft_eq', amount, BitVec.getLsbD_shiftLeft, BitVec.getLsbD_allOnes]
  by_cases above : start ≤ bit
  · have place : bit - start < 64 := by omega
    simp [bound, above, Nat.not_lt.mpr above, place]
  · simp [above, Nat.lt_of_not_le above]

/-- What is left from a bit on has no lower bit. -/
theorem le_trailingZeros_bitsFrom {word : UInt64} {start : Nat} (startInside : start < wordWidth)
    (nonzero : bitsFrom word start ≠ 0) : start ≤ trailingZeros (bitsFrom word start) := by
  have lowest : (bitsFrom word start).toBitVec.getLsbD (trailingZeros (bitsFrom word start)) =
      true := BitVec.getLsbD_true_ctz_of_ne_zero (toBitVec_ne_zero nonzero)
  rw [getLsbD_bitsFrom word startInside (trailingZeros_lt nonzero), Bool.and_eq_true] at lowest
  exact of_decide_eq_true lowest.1

/-! ## Membership and updates -/

/-- Whether an index is a member. -/
def contains (set : IndexSet) (index : Nat) : Bool :=
  match set.words[index / wordWidth]? with
  | some word => hasBit word (index % wordWidth)
  | none => false

instance : Membership Nat IndexSet where
  mem set index := set.contains index = true

instance (index : Nat) (set : IndexSet) : Decidable (index ∈ set) :=
  inferInstanceAs (Decidable (set.contains index = true))

/-- Whether the set has no members. -/
def isEmpty (set : IndexSet) : Bool :=
  set.count = 0

/-- The words, followed by as many empty ones as it takes to have a word of the
given number. -/
def wordsUpTo (set : IndexSet) (word : Nat) : Array UInt64 :=
  set.words ++ Array.replicate (word + 1 - set.words.size) 0

/-- The set with an index, and whether the index is new. -/
def insert (set : IndexSet) (index : Nat) : Bool × IndexSet :=
  let word := index / wordWidth
  let isNew := !set.contains index
  let words := (set.wordsUpTo word).modify word (· ||| bitMask (index % wordWidth))
  (isNew, { words := words, count := if isNew then set.count + 1 else set.count })

/-- The set without an index, and whether the index was a member. -/
def erase (set : IndexSet) (index : Nat) : Bool × IndexSet :=
  if set.contains index then
    let words :=
      set.words.modify (index / wordWidth) (· &&& ~~~ bitMask (index % wordWidth))
    (true, { words := words, count := set.count - 1 })
  else
    (false, set)

/-- The set without members.  The words stay. -/
def clear (set : IndexSet) : IndexSet :=
  { words := set.words.map fun _ => 0, count := 0 }

/-! ## Ascending walks -/

/-- The smallest index of the words from number `word` on, of which `bits` is left of the
first one. -/
def scan (words : Array UInt64) (word : Nat) (bits : UInt64) : Option Nat :=
  if bits != 0 then
    some (wordWidth * word + trailingZeros bits)
  else if inside : word + 1 < words.size then
    scan words (word + 1) words[word + 1]
  else
    none
termination_by words.size - word

/-- The smallest member not below `start`. -/
def nextFrom? (set : IndexSet) (start : Nat) : Option Nat :=
  match set.words[start / wordWidth]? with
  | some word => scan set.words (start / wordWidth) (bitsFrom word (start % wordWidth))
  | none => none

/-- What a scan finds lies in the first word or a later one, and is one that the words can
hold. -/
theorem scan_bounds {words : Array UInt64} {word : Nat} {bits : UInt64} {index : Nat}
    (present : word < words.size) (found : scan words word bits = some index) :
    wordWidth * word + (if bits = 0 then wordWidth else trailingZeros bits) ≤ index ∧
      index < wordWidth * words.size := by
  fun_induction scan words word bits with
  | case1 word bits nonzero =>
      have nonzero : bits ≠ 0 := by simpa using nonzero
      have inWord := trailingZeros_lt nonzero
      have fits : wordWidth * (word + 1) ≤ wordWidth * words.size :=
        Nat.mul_le_mul_left _ present
      rw [Nat.mul_succ] at fits
      simp only [Option.some.injEq] at found
      rw [if_neg nonzero]
      omega
  | case2 word bits zero inside ih =>
      have zero : bits = 0 := by simpa using zero
      have bounds := ih inside found
      rw [Nat.mul_succ] at bounds
      rw [if_pos zero]
      omega
  | case3 => simp at found

/-- A member found is not below the start and is one that the words can hold. -/
theorem nextFrom?_bounds {set : IndexSet} {start index : Nat}
    (found : set.nextFrom? start = some index) :
    start ≤ index ∧ index < wordWidth * set.words.size := by
  unfold nextFrom? at found
  split at found
  case h_1 word there =>
      have present := (Array.getElem?_eq_some_iff.mp there).1
      have inside : start % wordWidth < wordWidth := Nat.mod_lt _ (by decide)
      have bounds := scan_bounds present found
      have routed := Nat.div_add_mod start wordWidth
      split at bounds
      case isTrue => omega
      case isFalse nonzero =>
          have notLower := le_trailingZeros_bitsFrom inside nonzero
          omega
  case h_2 => cases found

/-- The members from `start` on, in ascending order. -/
def membersFrom (set : IndexSet) (start : Nat) : List Nat :=
  match found : set.nextFrom? start with
  | none => []
  | some index => index :: set.membersFrom (index + 1)
termination_by wordWidth * set.words.size - start
decreasing_by
  have bounds := nextFrom?_bounds found
  omega

/-- The members in ascending order. -/
def toList (set : IndexSet) : List Nat :=
  set.membersFrom 0

end IndexSet

end RecordPool
