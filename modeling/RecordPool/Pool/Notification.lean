import RecordPool.Pool.Basic

/-!
# Listeners of a pool and notifying writes

Subscriptions to both topics draw their identities from one sequence.  A notifying
write tells the change listeners of the record before it, edits the record, and
tells them of the record after it; without change listeners it is a plain edit.
When a listener or the edit ends in a fault, what comes after it is left out.
-/

namespace RecordPool.Pool

variable {σ α : Type}

/-! ## Subscriptions -/

/-- The pool with a subscription added to those of a topic. -/
def addSubscription (pool : Pool σ) (topic : Topic) (subscription : Subscription) : Pool σ :=
  match topic with
  | .changes =>
      { pool with changeListeners := pool.changeListeners ++ [subscription] }
  | .lifecycle =>
      { pool with lifecycleListeners := pool.lifecycleListeners ++ [subscription] }

/-- Subscribes a listener to a topic. -/
def subscribe (pool : Pool σ) (topic : Topic) (listener : Listener) : ListenerId × Pool σ :=
  let id : ListenerId := ⟨pool.nextListener⟩
  (id, { pool with nextListener := pool.nextListener + 1 }.addSubscription topic ⟨id, listener⟩)

/-- Whether a list has a subscription of an identity. -/
def hasSubscription (id : ListenerId) (subscriptions : List Subscription) : Bool :=
  subscriptions.any fun subscription => subscription.id = id

/-- A list without the subscription of an identity. -/
def withoutSubscription (id : ListenerId) (subscriptions : List Subscription) :
    List Subscription :=
  subscriptions.filter fun subscription => subscription.id ≠ id

/-- Ends a subscription to either topic, and tells whether there was one. -/
def unsubscribe (pool : Pool σ) (id : ListenerId) : Bool × Pool σ :=
  if hasSubscription id pool.changeListeners then
    (true, { pool with
      changeListeners := withoutSubscription id pool.changeListeners })
  else if hasSubscription id pool.lifecycleListeners then
    (true, { pool with
      lifecycleListeners := withoutSubscription id pool.lifecycleListeners })
  else
    (false, pool)

/-! ## Telling and writing -/

/-- Runs a computation on the store. -/
def onStore {ε : Type} (action : EStateM ε σ α) : EStateM ε (Pool σ) α :=
  focus (·.slab.store)
    (fun store pool => { pool with slab := { pool.slab with store := store } }) action

/-- Runs a computation on the slab. -/
def onSlab {ε : Type} (action : EStateM ε (Slab σ) α) : EStateM ε (Pool σ) α :=
  focus (·.slab) (fun slab pool => { pool with slab := slab }) action

/-- Runs a computation on the journal. -/
def onJournal {ε : Type} (action : EStateM ε Journal α) : EStateM ε (Pool σ) α :=
  focus (·.journal) (fun journal pool => { pool with journal := journal }) action

variable [Store σ]

/-- Tells listeners of a record.  Without listeners nothing is done, not even
looking whether there is such a record. -/
def announce (listeners : Pool σ → List Subscription) (phase : Phase) (index : Nat) :
    EStateM Fault (Pool σ) Unit := do
  let pool ← get
  if (listeners pool).isEmpty then
    return ()
  else
    let record ← ofExcept (pool.record index)
    onJournal (Journal.tell phase record (listeners pool))

/-- Tells the change listeners of a record about to be written. -/
def tellBefore (index : Nat) : EStateM Fault (Pool σ) Unit :=
  announce changeListeners .beforeChange index

/-- Tells the change listeners of a record just written. -/
def tellAfter (index : Nat) : EStateM Fault (Pool σ) Unit :=
  announce changeListeners .afterChange index

/-- Edits a record without telling anyone. -/
def editQuietly (index : Nat) (edit : Edit α) : EStateM Fault (Pool σ) α :=
  onStore (Elements.edit index edit)

/-- Edits a record and tells the change listeners before and after. -/
def editNotifying (index : Nat) (edit : Edit α) : EStateM Fault (Pool σ) α := do
  tellBefore index
  let value ← editQuietly index edit
  tellAfter index
  return value

end RecordPool.Pool
