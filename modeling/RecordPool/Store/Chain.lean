import RecordPool.Focus
import RecordPool.Store.Basic

/-!
# Chains of stores

A chain lifts the bound of a single array: it routes element `i` to sub-array
`i / arrayLength`, at the local index `i % arrayLength`.  Every sub-array but the
last holds `arrayLength` elements.

To grow, a chain walks its sub-arrays from the first, growing each to full length,
or to the rest in the last one, and opens those that are missing.  When one of
them refuses, the walk ends: the sub-arrays that grew stay as they are, and the
number of elements of the chain does not change.
-/

namespace RecordPool

/-- Sub-arrays of equal length. -/
structure Chain (σ : Type) where
  arrays : Array σ
  elementSize : Nat
  /-- The number of elements of a full sub-array. -/
  arrayLength : Nat
  maxArrays : Nat
  size : Nat
  /-- What the sub-arrays are opened on. -/
  system : System
  /-- How many times a sub-array was asked for. -/
  attempts : Nat

namespace Chain

variable {σ : Type}

/-- The sub-arrays that a chain may have unless it is opened with another bound. -/
def defaultMaxArrays : Nat := UInt32.size - 1

/-- The number of elements that a chain can address. -/
def maxSize (chain : Chain σ) : Nat :=
  min (chain.maxArrays * chain.arrayLength) (Address.limit - 1)

/-- The sub-array of an element and its index there. -/
def locate (chain : Chain σ) (index : Nat) : Nat × Nat :=
  (index / chain.arrayLength, index % chain.arrayLength)

/-- The fault of an element that is not there. -/
def outOfBounds (chain : Chain σ) (index : Nat) : Fault :=
  .elementOutOfBounds index chain.size

/-- The number of sub-arrays that a number of elements takes, reckoned in machine words. -/
def arraysInWords (chain : Chain σ) (count : Nat) : Except Fault Nat :=
  if count % chain.arrayLength = 0 then
    .ok (count / chain.arrayLength)
  else
    Address.check (count / chain.arrayLength + 1)

/-- The number of elements of a sub-array when there are `count` in `needed` sub-arrays,
reckoned in machine words, in which a number less than zero overflows as well. -/
def targetInWords (chain : Chain σ) (count needed array : Nat) : Except Fault Nat := do
  let next ← Address.check (array + 1)
  if next < needed then
    return chain.arrayLength
  else
    let start ← Address.check (array * chain.arrayLength)
    if start ≤ count then
      return count - start
    else
      throw .addressOverflow

/-! ## Growing -/

section Growing

variable [SubStore σ]

/-- Grows a sub-array, or opens it as the next one. -/
def growArray (array count : Nat) : EStateM (Failure Store.Error) (Chain σ) Unit := fun chain =>
  match chain.arrays[array]? with
  | some store =>
      match Store.resize count store with
      | .ok _ grown => .ok () { chain with arrays := chain.arrays.setIfInBounds array grown }
      | .error error left =>
          .error error { chain with arrays := chain.arrays.setIfInBounds array left }
  | none =>
      let asked := { chain with attempts := chain.attempts + 1 }
      match SubStore.allocate chain.system chain.attempts chain.elementSize count with
      | .ok store => .ok () { asked with arrays := chain.arrays.push store }
      | .error error => .error error asked

/-- Grows `remaining` sub-arrays from number `array` on, for `count` elements in
`needed` sub-arrays. -/
def growArrays (count needed array : Nat) :
    (remaining : Nat) → EStateM (Failure Store.Error) (Chain σ) Unit
  | 0 => pure ()
  | remaining + 1 => do
      let target ← orFault ((← get).targetInWords count needed array)
      growArray array target
      growArrays count needed (array + 1) remaining

/-- Grows the chain. -/
def resize (count : Nat) : EStateM (Failure Store.Error) (Chain σ) Unit := do
  let chain ← get
  if count ≤ chain.size then
    return ()
  else if chain.maxSize < count then
    throw (.refused (.capacityExceeded count chain.maxSize))
  else
    let needed ← orFault (chain.arraysInWords count)
    growArrays count needed 0 needed
    modify fun grown => { grown with size := count }

end Growing

/-! ## Elements -/

/-- Runs a computation on a sub-array. -/
def onArray {ε : Type} (missing : ε) (array : Nat) (action : EStateM ε σ Unit) :
    EStateM ε (Chain σ) Unit := fun chain =>
  match chain.arrays[array]? with
  | some store =>
      match action store with
      | .ok _ left => .ok () { chain with arrays := chain.arrays.setIfInBounds array left }
      | .error error left =>
          .error error { chain with arrays := chain.arrays.setIfInBounds array left }
  | none => .error missing chain

/-- The contents of an element of a sub-array. -/
def elementOf [Store σ] (chain : Chain σ) (missing : Fault) (array localIndex : Nat) :
    Except Fault Buffer :=
  match chain.arrays[array]? with
  | some store => Elements.element store localIndex
  | none => .error missing

/-- The contents of an element. -/
def element [Store σ] (chain : Chain σ) (index : Nat) : Except Fault Buffer :=
  if index < chain.size then
    let (array, localIndex) := chain.locate index
    chain.elementOf (chain.outOfBounds index) array localIndex
  else
    .error (chain.outOfBounds index)

/-- Writes over an element. -/
def overwrite [Store σ] (index : Nat) (contents : Buffer) :
    EStateM Fault (Chain σ) Unit := do
  let chain ← get
  if index < chain.size then
    let (array, localIndex) := chain.locate index
    onArray (chain.outOfBounds index) array (Elements.overwrite localIndex contents)
  else
    throw (chain.outOfBounds index)

/-- Exchanges the bytes of an element of one sub-array with those of an element of another. -/
def exchangeBetween [Store σ] (missing : Fault) (low lowLocal high highLocal : Nat) :
    EStateM Fault (Chain σ) Unit := do
  let chain ← get
  let lowContents ← ofExcept (chain.elementOf missing low lowLocal)
  let highContents ← ofExcept (chain.elementOf missing high highLocal)
  onArray missing low (Elements.overwrite lowLocal highContents)
  onArray missing high (Elements.overwrite highLocal lowContents)

/-- Exchanges two elements: inside one sub-array in its own way, and otherwise between the
lower and the higher one of their sub-arrays. -/
def swap [Store σ] (left right : Nat) : EStateM Fault (Chain σ) Unit := do
  let chain ← get
  if left = right then
    return ()
  else if chain.size ≤ left then
    throw (chain.outOfBounds left)
  else if chain.size ≤ right then
    throw (chain.outOfBounds right)
  else
    let (leftArray, leftLocal) := chain.locate left
    let (rightArray, rightLocal) := chain.locate right
    let missing := chain.outOfBounds left
    if leftArray = rightArray then
      onArray missing leftArray (Store.swap leftLocal rightLocal)
    else if leftArray < rightArray then
      exchangeBetween missing leftArray leftLocal rightArray rightLocal
    else
      exchangeBetween missing rightArray rightLocal leftArray leftLocal

/-- The bytes that the sub-arrays hold. -/
def heldBytes [Store σ] (chain : Chain σ) : Nat :=
  chain.arrays.foldl (fun total store => total + Store.heldBytes store) 0

instance [SubStore σ] : Store (Chain σ) where
  elementSize := elementSize
  size := size
  maxSize := maxSize
  resize := resize
  element := element
  overwrite := overwrite
  swap := swap
  heldBytes := heldBytes

/-! ## Opening -/

section Opening

variable [SubStore σ]

/-- A chain that a sub-array was opened for on trial only. -/
def unused (elementSize arrayLength maxArrays : Nat) (system : System) : Chain σ :=
  ⟨#[], elementSize, arrayLength, maxArrays, 0, system, 1⟩

/-- A chain of at most `maxArrays` sub-arrays.  A sub-array is opened for trial, so
that sub-arrays longer than it can be are refused at once. -/
def createBounded (elementSize arrayLength count maxArrays : Nat) (system : System := .usual) :
    Except (Failure Store.Error) (Chain σ) := do
  if elementSize = 0 then
    throw (.refused (.invalidConfig .emptyElements))
  else if arrayLength = 0 then
    throw (.refused (.invalidConfig .emptyArrays))
  else if maxArrays = 0 then
    throw (.refused (.invalidConfig .noArrays))
  else
    let trial : σ ← SubStore.allocate system 0 elementSize 0
    if Store.maxSize trial < arrayLength then
      throw (.refused (.invalidConfig (.arraysTooLong arrayLength (Store.maxSize trial))))
    else
      match resize count (unused elementSize arrayLength maxArrays system) with
      | .ok _ chain => return chain
      | .error error _ => throw error

/-- A chain with the usual bound. -/
def create (elementSize arrayLength count : Nat) (system : System) :
    Except (Failure Store.Error) (Chain σ) :=
  createBounded elementSize arrayLength count defaultMaxArrays system

end Opening

end Chain

end RecordPool
