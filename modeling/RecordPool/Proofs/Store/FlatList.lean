import RecordPool.Proofs.Store.Operation

/-!
# Flat lists of byte strings

The plainest of all stores: a list of byte strings of one length.  It answers the operations
on stores with nothing but `take`, `drop` and replacement in a list.
-/

namespace RecordPool.Store

/-- A list of byte strings with a position in it. -/
structure FlatList where
  /-- The length of a new string. -/
  elementSize : Nat
  /-- The number of strings that there may be. -/
  maxSize : Nat
  elements : List Bytes
  position : Nat

namespace FlatList

/-- The list that a store just opened is. -/
def fresh (elementSize maxSize size : Nat) : FlatList :=
  ⟨elementSize, maxSize, List.replicate size (List.replicate elementSize 0), 0⟩

/-- The string at an index. -/
def element (list : FlatList) (index : Nat) : Except Fault Bytes :=
  match list.elements[index]? with
  | some bytes => .ok bytes
  | none => .error (.elementOutOfBounds index list.elements.length)

/-- The `count` bytes from `offset` of a string. -/
def window (offset count : Nat) (bytes : Bytes) : Except Fault Bytes :=
  if offset + count ≤ bytes.length then
    .ok ((bytes.drop offset).take count)
  else
    .error .byteRange

/-- A string with others of its bytes from `offset` on. -/
def splice (offset : Nat) (replacement bytes : Bytes) : Except Fault Bytes :=
  if offset + replacement.length ≤ bytes.length then
    .ok (bytes.take offset ++ replacement ++ bytes.drop (offset + replacement.length))
  else
    .error .byteRange

/-- As many other bytes in place of a string. -/
def replace (replacement bytes : Bytes) : Except Fault Bytes :=
  if replacement.length = bytes.length then .ok replacement else .error .byteCount

/-- The value of a kind at an offset of the string at an index. -/
def read (list : FlatList) (index : Nat) (kind : Kind) (offset : Nat) :
    Except Fault kind.Carrier := do
  let bytes ← list.element index
  let image ← window offset kind.size bytes
  kind.decode image

/-- Changes the string at an index.  When that fails, nothing is changed. -/
def update (list : FlatList) (index : Nat) (change : Bytes → Except Fault Bytes) :
    Answer × FlatList :=
  match list.element index >>= change with
  | .ok bytes => (.ok .done, { list with elements := list.elements.set index bytes })
  | .error fault => (.error (.fault fault), list)

/-- Changes the string at an index to what can be computed first. -/
def updateFrom (list : FlatList) (index : Nat) (run : Except Fault Bytes)
    (change : Bytes → Bytes → Except Fault Bytes) : Answer × FlatList :=
  match run with
  | .ok bytes => list.update index (change bytes)
  | .error fault => (.error (.fault fault), list)

/-- Lengthens the list by strings of zeros. -/
def resize (list : FlatList) (count : Nat) : Answer × FlatList :=
  if count ≤ list.elements.length then
    (.ok .done, list)
  else if list.maxSize < count then
    (.error (.refused (.capacityExceeded count list.maxSize)), list)
  else
    let more := List.replicate (count - list.elements.length) (List.replicate list.elementSize 0)
    (.ok .done, { list with elements := list.elements ++ more })

/-- Carries out an operation whatever its outcome. -/
def step (list : FlatList) : Operation → Answer × FlatList
  | .resize count => list.resize count
  | .size => (.ok (.count list.elements.length), list)
  | .element index => (.showing .bytes (list.element index), list)
  | .read index kind offset => (.showing (.value kind) (list.read index kind offset), list)
  | .write index kind offset value => list.update index (splice offset (kind.encode value))
  | .fill index bytes => list.update index (replace bytes)
  | .copy source target =>
      if source = target then
        (.ok .done, list)
      else
        list.updateFrom target (list.element source) fun bytes _ => .ok bytes
  | .start => (.ok .done, { list with position := 0 })
  | .moveTo index => (.ok .done, { list with position := index })
  | .contents => (.showing .bytes (list.element list.position), list)
  | .get kind offset => (.showing (.value kind) (list.read list.position kind offset), list)
  | .put kind offset value =>
      list.update list.position (splice offset (kind.encode value))
  | .copyRange source offset count =>
      if source = list.position then
        (.ok .done, list)
      else
        list.updateFrom list.position (list.element source >>= window offset count)
          (splice offset)

/-- Carries out operations in order. -/
def run (list : FlatList) : List Operation → List Answer × FlatList
  | [] => ([], list)
  | operation :: rest =>
      let (answer, after) := list.step operation
      let (answers, final) := after.run rest
      (answer :: answers, final)

/-- A list does not change in an operation that fails. -/
theorem step_eq_self_of_error (list : FlatList) (operation : Operation)
    {failure : Failure Store.Error} (failed : (list.step operation).1 = .error failure) :
    (list.step operation).2 = list := by
  have updated (index : Nat) (change : Bytes → Except Fault Bytes)
      (failed : (list.update index change).1 = .error failure) :
      (list.update index change).2 = list := by
    unfold update at failed ⊢
    cases changed : list.element index >>= change with
    | ok bytes =>
        rw [changed] at failed
        cases failed
    | error fault => rfl
  have updatedFrom (index : Nat) (run : Except Fault Bytes)
      (change : Bytes → Bytes → Except Fault Bytes)
      (failed : (list.updateFrom index run change).1 = .error failure) :
      (list.updateFrom index run change).2 = list := by
    cases run with
    | ok bytes => exact updated index (change bytes) failed
    | error fault => rfl
  cases operation with
  | resize count =>
      simp only [step, resize] at failed ⊢
      split at failed
      case isTrue within => rw [if_pos within]
      case isFalse larger =>
          split at failed
          case isTrue beyond => rw [if_neg larger, if_pos beyond]
          case isFalse => cases failed
  | write index kind offset value => exact updated _ _ failed
  | fill index bytes => exact updated _ _ failed
  | put kind offset value => exact updated _ _ failed
  | copy source target =>
      simp only [step] at failed ⊢
      by_cases same : source = target
      · rw [if_pos same]
      · rw [if_neg same] at failed ⊢
        exact updatedFrom _ _ _ failed
  | copyRange source offset count =>
      simp only [step] at failed ⊢
      by_cases same : source = list.position
      · rw [if_pos same]
      · rw [if_neg same] at failed ⊢
        exact updatedFrom _ _ _ failed
  | start => cases failed
  | moveTo index => cases failed
  | _ => rfl

end FlatList

end RecordPool.Store
