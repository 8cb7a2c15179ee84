import RecordPool.Interner
import Mathlib.Data.Finset.Card

/-!
# Keys and ids of a table

What every operation does to the id of every key: a key that is added has the id it was added
with, a key that is removed has none, and all other keys keep theirs.  No key is entered twice,
so that there are as many keys as entries.
-/

namespace RecordPool.Interner

variable {κ : Type} [DecidableEq κ] {table : Interner κ} {key other : κ}

theorem get?_empty (key : κ) : ({} : Interner κ).get? key = none :=
  rfl

theorem get?_eq_none_iff : table.get? key = none ↔ key ∉ table.entries.map Prod.fst := by
  rw [get?, Option.map_eq_none_iff, List.find?_eq_none, List.mem_map]
  simp only [decide_eq_true_eq]
  constructor
  · rintro unentered ⟨entry, entered, same⟩
    exact unentered entry entered same
  · intro unentered entry entered same
    exact unentered ⟨entry, entered, same⟩

/-- Nothing changes for any key when one is given the id that it has. -/
theorem ite_get?_of_known {id : Nat} (known : table.get? key = some id) (other : κ) :
    (if other = key then some id else table.get? other) = table.get? other := by
  split
  case isTrue same => rw [same, known]
  case isFalse => rfl

/-- A key that is added has the id it was added with. -/
theorem get?_add (absent : table.get? key = none) (id : Nat) (other : κ) :
    (table.add key id).get? other = if other = key then some id else table.get? other := by
  rw [get?, add, List.find?_append]
  by_cases same : other = key
  · subst same
    have unfound : table.entries.find? (fun entry => entry.1 = other) = none :=
      Option.map_eq_none_iff.mp absent
    simp [unfound]
  · have different : ¬ key = other := fun equal => same equal.symm
    simp [get?, same, different]

/-- A key that is removed has no id. -/
theorem get?_remove (key other : κ) :
    (table.remove key).2.get? other = if other = key then none else table.get? other := by
  rw [get?, remove, List.find?_filter]
  by_cases same : other = key
  · subst same
    simp
  · rw [if_neg same, get?]
    congr 2
    funext entry
    by_cases found : entry.1 = other
    · simp [found, same]
    · simp [found]

theorem get?_mint (absent : table.get? key = none) (other : κ) :
    (table.intern key).2.get? other =
      if other = key then some table.nextId else table.get? other := by
  simp only [intern, absent]
  exact get?_add absent table.nextId other

/-- The keys that are present. -/
def keys (table : Interner κ) : Finset κ :=
  (table.entries.map Prod.fst).toFinset

/-- No key is entered twice. -/
def Proper (table : Interner κ) : Prop :=
  (table.entries.map Prod.fst).Nodup

theorem mem_keys : key ∈ table.keys ↔ (table.get? key).isSome = true := by
  rw [keys, List.mem_toFinset, ← not_iff_not, ← get?_eq_none_iff, Option.not_isSome_iff_eq_none]

theorem Proper.card_keys (proper : table.Proper) : table.keys.card = table.count := by
  rw [keys, List.toFinset_card_of_nodup proper, List.length_map, count]

omit [DecidableEq κ] in
theorem proper_empty : ({} : Interner κ).Proper :=
  List.nodup_nil

theorem Proper.add (proper : table.Proper) (absent : table.get? key = none) (id : Nat) :
    (table.add key id).Proper := by
  rw [get?_eq_none_iff] at absent
  rw [Proper, Interner.add, List.map_append, List.nodup_append_comm, List.map_singleton,
    List.singleton_append, List.nodup_cons]
  exact ⟨absent, proper⟩

theorem Proper.remove (proper : table.Proper) (key : κ) : (table.remove key).2.Proper :=
  List.Nodup.sublist (List.filter_sublist.map Prod.fst) proper

end RecordPool.Interner
