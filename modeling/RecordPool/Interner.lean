/-!
# Canonical ids of keys

An `Interner` gives every key one id.  A key that is asked for again gets the id
it has.  New ids are minted in order and a minted id is never given again, not
even when its key is removed; alternatively the caller supplies a computation of
the id, which runs only for a key that is absent.
-/

namespace RecordPool

/-- Keys with their ids, and the next id to mint. -/
structure Interner (κ : Type) where
  entries : List (κ × Nat) := []
  nextId : Nat := 0

namespace Interner

variable {κ : Type} [DecidableEq κ]

/-- The id of a key. -/
def get? (table : Interner κ) (key : κ) : Option Nat :=
  (table.entries.find? fun entry => entry.1 = key).map (·.2)

/-- The table with an entry for an absent key. -/
def add (table : Interner κ) (key : κ) (id : Nat) : Interner κ :=
  { table with entries := table.entries ++ [(key, id)] }

/-- The id of a key, minted if the key is absent. -/
def intern (table : Interner κ) (key : κ) : Nat × Interner κ :=
  match table.get? key with
  | some id => (id, table)
  | none => (table.nextId, { table.add key table.nextId with nextId := table.nextId + 1 })

/-- The id of a key, computed if the key is absent. -/
def internWith {m : Type → Type} [Monad m] (table : Interner κ) (key : κ)
    (assign : m Nat) : m (Nat × Interner κ) :=
  match table.get? key with
  | some id => pure (id, table)
  | none => do
      let id ← assign
      return (id, table.add key id)

/-- Forgets a key, and tells the id that it had. -/
def remove (table : Interner κ) (key : κ) : Option Nat × Interner κ :=
  (table.get? key,
    { table with entries := table.entries.filter fun entry => entry.1 ≠ key })

/-- The number of keys. -/
def count (table : Interner κ) : Nat :=
  table.entries.length

/-- Whether there are no keys. -/
def isEmpty (table : Interner κ) : Bool :=
  table.entries.isEmpty

end Interner

end RecordPool
