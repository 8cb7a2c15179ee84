import RecordPool.Layout.Location

/-!
# Listeners and the journal

Listeners are told of records at four phases: before and after a notifying write,
when a record has been created and when it is about to be deleted.  What was told
to whom is kept in a journal, in the order of telling; the views below read out of
it what one listener has been told.

A listener may look into the record that it is shown.  When that is a fault, the
telling ends there: the listener takes nothing down and those after it are not
told.
-/

namespace RecordPool

/-- The moments at which listeners are told of a record. -/
inductive Phase where
  | beforeChange
  | afterChange
  | created
  | beforeDelete
  deriving DecidableEq

/-- The name of a phase. -/
def Phase.name : Phase → String
  | .beforeChange => "before"
  | .afterChange => "after"
  | .created => "created"
  | .beforeDelete => "delete"

/-- The identity of a subscription. -/
structure ListenerId where
  value : Nat
  deriving DecidableEq

/-- What a listener takes an interest in.  It has no memory: what it does when it is told of a
record depends on the phase and the record alone, whatever it was told before. -/
structure Listener where
  /-- The phases it takes down. -/
  hears : Phase → Bool
  /-- How it looks into a record. -/
  look : Record → Except Fault Unit

namespace Listener

/-- A listener that takes down every record it is shown. -/
def attentive : Listener where
  hears _ := true
  look _ := .ok ()

/-- A listener that reads a value of every record it is shown. -/
def reading {kind : Kind} (cell : Cell kind) : Listener where
  hears _ := true
  look record := discard <| cell.read record

/-- The listener kept to one phase. -/
def only (listener : Listener) (phase : Phase) : Listener :=
  { listener with hears := fun other => decide (other = phase) }

end Listener

/-- What listeners can subscribe to. -/
inductive Topic where
  /-- Notifying writes. -/
  | changes
  /-- Creations and deletions. -/
  | lifecycle
  deriving DecidableEq

/-- A listener under its identity. -/
structure Subscription where
  id : ListenerId
  listener : Listener

/-- One record told to one listener. -/
structure Delivery where
  listener : ListenerId
  phase : Phase
  record : Record
  deriving DecidableEq

/-- All that was told, in order. -/
abbrev Journal := Array Delivery

namespace Journal

/-- Tells listeners of a record, one after another. -/
def tell (phase : Phase) (record : Record) : List Subscription → EStateM Fault Journal Unit
  | [] => pure ()
  | subscription :: rest => do
      if subscription.listener.hears phase then
        ofExcept (subscription.listener.look record)
        modify (·.push ⟨subscription.id, phase, record⟩)
      tell phase record rest

/-- What one listener was told, in order. -/
def toldTo (journal : Journal) (id : ListenerId) : List (Phase × Record) :=
  journal.toList.filterMap fun delivery =>
    if delivery.listener = id then some (delivery.phase, delivery.record) else none

/-- How often a listener was told of a phase. -/
def countOf (journal : Journal) (id : ListenerId) (phase : Phase) : Nat :=
  (journal.toldTo id).countP fun told => told.1 = phase

/-- The ids of the records of which a listener was told at a phase. -/
def idsAt (journal : Journal) (id : ListenerId) (phase : Phase) : List Nat :=
  (journal.toldTo id).filterMap fun told =>
    if told.1 = phase then some told.2.id else none

end Journal

end RecordPool
