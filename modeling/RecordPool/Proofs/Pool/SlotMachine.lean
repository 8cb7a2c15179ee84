import RecordPool.Proofs.Pool.FieldWrite
import Mathlib.Data.Finset.Sort
import Mathlib.Logic.Equiv.Basic

/-!
# The slot machine

A pool in the simplest terms: an endless row of slots, the set of the ids that are live, a
stack of the ids that were freed, and a high-water mark.  Nothing is stored in pieces here,
nothing is packed and nothing is grown; the capacity is only a number, which grows as that
of a pool does and says which slots can be reached.
-/

namespace RecordPool

/-- What is asked of a slot machine, and of a pool that it stands for. -/
inductive Pool.Request where
  | create (proxy : Proxy)
  | delete (proxy : Proxy)
  | deleteId (id : Nat)
  | lookUp (id : Nat) (proxy : Proxy)
  | lookUpIfLive (id : Nat) (proxy : Proxy)
  | swap (left right : Nat)
  | reserve (count : Nat)
  | clear
  | setInitializer (initializer : Option (Nat → Edit Unit))
  | write (write : FieldWrite) (proxy : Proxy)

/-- The command that a request is to a pool. -/
def Pool.Request.command : Pool.Request → Pool.Command
  | .create proxy => .create proxy
  | .delete proxy => .delete proxy
  | .deleteId id => .deleteId id
  | .lookUp id proxy => .lookUp id proxy
  | .lookUpIfLive id proxy => .lookUpIfLive id proxy
  | .swap left right => .swap left right
  | .reserve count => .reserve count
  | .clear => .clear
  | .setInitializer initializer => .setInitializer initializer
  | .write change proxy => .write change proxy

/-- A row of slots and what is handed out of them. -/
structure SlotMachine where
  id : PoolId
  policy : ReusePolicy
  validation : Bool
  initializer : Option (Nat → Edit Unit)
  /-- The number of slots that can ever be reached. -/
  maxSize : Nat
  /-- The number of slots that can be reached now. -/
  capacity : Nat
  slot : Nat → Buffer
  live : Finset Nat
  /-- The freed ids, the one freed last in front. -/
  freed : List Nat
  /-- All ids handed out are below this one. -/
  highWater : Nat

namespace SlotMachine

open Pool

/-- A machine that has handed out nothing. -/
def start (id : PoolId) (config : Config) (maxSize capacity : Nat) (slot : Nat → Buffer) :
    SlotMachine where
  id := id
  policy := config.policy
  validation := config.validation
  initializer := none
  maxSize := maxSize
  capacity := capacity
  slot := slot
  live := ∅
  freed := []
  highWater := 0

/-- What is in a slot. -/
def record (machine : SlotMachine) (index : Nat) : Except Fault Record :=
  if index < machine.capacity then
    .ok ⟨index, machine.slot index⟩
  else
    .error (.elementOutOfBounds index machine.capacity)

/-- Edits what is in a slot.  What an edit wrote before a fault stays. -/
def edit (machine : SlotMachine) (index : Nat) (edit : Edit Unit) :
    Except Fault Unit × SlotMachine :=
  if index < machine.capacity then
    let outcome := edit.run (machine.slot index)
    (answerOf outcome,
      { machine with slot := Function.update machine.slot index (contentsLeft outcome) })
  else
    (.error (.elementOutOfBounds index machine.capacity), machine)

@[simp]
theorem capacity_edit (machine : SlotMachine) (index : Nat) (edit : Edit Unit) :
    (machine.edit index edit).2.capacity = machine.capacity := by
  unfold SlotMachine.edit
  split <;> rfl

theorem record_of_reached {machine : SlotMachine} {index : Nat}
    (reached : index < machine.capacity) :
    machine.record index = .ok ⟨index, machine.slot index⟩ :=
  if_pos reached

theorem record_of_unreached {machine : SlotMachine} {index : Nat}
    (unreached : ¬ index < machine.capacity) :
    machine.record index = .error (.elementOutOfBounds index machine.capacity) :=
  if_neg unreached

/-- Writes to a field of the record that a proxy points at. -/
def write (machine : SlotMachine) (write : FieldWrite) (proxy : Proxy) :
    Except Fault Unit × SlotMachine :=
  if proxy.owner = machine.id then
    match write.plan (machine.record proxy.index) with
    | .ok edit => machine.edit proxy.index edit
    | .error fault => (.error fault, machine)
  else
    (.error .foreignProxy, machine)

/-- The capacity with one id more handed out at the high-water mark: when it is reached it
doubles, as far as it may. -/
def nextCapacity (machine : SlotMachine) : Nat :=
  if machine.highWater = machine.capacity then
    let doubled := min (max machine.capacity 1 * 2) (Address.limit - 1)
    min (max doubled (machine.highWater + 1)) machine.maxSize
  else
    machine.capacity

/-- Hands out the id at the high-water mark, unless there is no slot for it. -/
def allotNext (machine : SlotMachine) : Option (Nat × SlotMachine) :=
  if machine.highWater = machine.maxSize then
    none
  else
    some (machine.highWater,
      { machine with
        live := insert machine.highWater machine.live
        highWater := machine.highWater + 1
        capacity := machine.nextCapacity })

/-- Hands out the id on top of the stack or else the one at the high-water mark. -/
def allot (machine : SlotMachine) : Option (Nat × SlotMachine) :=
  match machine.policy, machine.freed with
  | .reuse, index :: rest =>
      some (index, { machine with live := insert index machine.live, freed := rest })
  | _, _ => machine.allotNext

theorem allot_of_freed {machine : SlotMachine} {index : Nat} {rest : List Nat}
    (reuses : machine.policy = .reuse) (freed : machine.freed = index :: rest) :
    machine.allot =
      some (index, { machine with live := insert index machine.live, freed := rest }) := by
  unfold allot
  split
  case h_1 index' rest' _ freed' =>
      rw [freed] at freed'
      cases freed'
      rfl
  case h_2 other => exact absurd freed (other index rest reuses)

theorem allot_of_none_freed {machine : SlotMachine} (freed : machine.freed = []) :
    machine.allot = machine.allotNext := by
  unfold allot
  split
  case h_1 _ freed' =>
      rw [freed] at freed'
      cases freed'
  case h_2 => rfl

theorem allot_of_appendOnly {machine : SlotMachine} (policy : machine.policy = .appendOnly) :
    machine.allot = machine.allotNext := by
  unfold allot
  split
  case h_1 reuses _ =>
      rw [policy] at reuses
      cases reuses
  case h_2 => rfl

/-- Runs the initializer on a slot, which holds what it held last. -/
def prepare (machine : SlotMachine) (index : Nat) : Except Fault Unit × SlotMachine :=
  match machine.initializer with
  | some initializer => machine.edit index (initializer index)
  | none => (.ok (), machine)

@[simp]
theorem capacity_prepare (machine : SlotMachine) (index : Nat) :
    (machine.prepare index).2.capacity = machine.capacity := by
  unfold prepare
  split
  · exact capacity_edit machine index _
  · rfl

/-- Prepares a record that was allotted, and points the proxy at it. -/
def finish (machine : SlotMachine) (proxy : Proxy) (index : Nat) : Answer × SlotMachine :=
  match machine.prepare index with
  | (.ok _, left) => (.ok (.proxy (proxy.pointAt index)), left)
  | (.error fault, left) => (.error (.fault fault), left)

/-- Creates a record, if there is an id for it. -/
def create (machine : SlotMachine) (proxy : Proxy) : Answer × SlotMachine :=
  if proxy.owner = machine.id then
    match machine.allot with
    | none =>
        (.error (.refused (.store
          (.capacityExceeded (machine.highWater + 1) machine.maxSize))), machine)
    | some (index, allotted) => allotted.finish proxy index
  else
    (.error (.refused (.foreignProxy proxy.owner machine.id)), machine)

/-- Puts a live id on the stack. -/
def deleteId (machine : SlotMachine) (id : Nat) : Answer × SlotMachine :=
  if id ∈ machine.live then
    (.ok .done, { machine with live := machine.live.erase id, freed := id :: machine.freed })
  else
    (.error (.refused (.noSuchElement id)), machine)

/-- Deletes the record that a proxy points at. -/
def delete (machine : SlotMachine) (proxy : Proxy) : Answer × SlotMachine :=
  if proxy.owner = machine.id then
    machine.deleteId proxy.index
  else
    (.error (.refused (.foreignProxy proxy.owner machine.id)), machine)

/-- Points a proxy at a record. -/
def lookUp (machine : SlotMachine) (id : Nat) (proxy : Proxy) : Answer :=
  if proxy.owner = machine.id then
    if machine.validation ∧ id ∉ machine.live then
      .error (.refused (.noSuchElement id))
    else
      .ok (.proxy (proxy.pointAt id))
  else
    .error (.refused (.foreignProxy proxy.owner machine.id))

/-- Points a proxy at a record that is live. -/
def lookUpIfLive (machine : SlotMachine) (id : Nat) (proxy : Proxy) : Answer :=
  .ok (.found
    (if proxy.owner = machine.id ∧ id ∈ machine.live then some (proxy.pointAt id) else none))

/-- Exchanges two slots below the high-water mark. -/
def swap (machine : SlotMachine) (left right : Nat) : Answer × SlotMachine :=
  if machine.highWater ≤ left then
    (.error (.refused (.store (.indexOutOfRange left machine.highWater))), machine)
  else if machine.highWater ≤ right then
    (.error (.refused (.store (.indexOutOfRange right machine.highWater))), machine)
  else
    (.ok .done, { machine with slot := machine.slot ∘ Equiv.swap left right })

/-- Makes a number of slots reachable. -/
def reserve (machine : SlotMachine) (count : Nat) : Answer × SlotMachine :=
  if count ≤ machine.capacity then
    (.ok .done, machine)
  else if machine.maxSize < count then
    (.error (.refused (.store (.capacityExceeded count machine.maxSize))), machine)
  else
    (.ok .done, { machine with capacity := count })

/-- Forgets all ids.  The slots stay. -/
def clear (machine : SlotMachine) : SlotMachine :=
  { machine with live := ∅, freed := [], highWater := 0 }

/-- The answer to a request that can only end in a fault. -/
def answered (outcome : Except Fault Unit × SlotMachine) : Answer × SlotMachine :=
  match outcome with
  | (.ok _, left) => (.ok .done, left)
  | (.error fault, left) => (.error (.fault fault), left)

/-- Does what is asked. -/
def step (machine : SlotMachine) : Request → Answer × SlotMachine
  | .create proxy => machine.create proxy
  | .delete proxy => machine.delete proxy
  | .deleteId id => machine.deleteId id
  | .lookUp id proxy => (machine.lookUp id proxy, machine)
  | .lookUpIfLive id proxy => (machine.lookUpIfLive id proxy, machine)
  | .swap left right => machine.swap left right
  | .reserve count => machine.reserve count
  | .clear => (.ok .done, machine.clear)
  | .setInitializer initializer => (.ok .done, { machine with initializer := initializer })
  | .write change proxy => answered (machine.write change proxy)

/-- Does all that is asked, in order. -/
def run (machine : SlotMachine) : List Request → List Answer × SlotMachine
  | [] => ([], machine)
  | request :: rest =>
      let (answer, changed) := machine.step request
      let (answers, final) := changed.run rest
      (answer :: answers, final)

end SlotMachine

end RecordPool
