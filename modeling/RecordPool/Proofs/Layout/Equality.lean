import RecordPool.Proofs.Layout.Accessor
import Mathlib.Data.List.Nodup
import Mathlib.Data.List.Perm.Subperm

/-!
# Equal layouts

Two layouts are compared field by field, each looked up by its name, without a look at the
order of the fields.  Between layouts that were built the order is not lost for all that: no
field is empty, so that their offsets ascend and tell it.  Equal built layouts therefore have
the same declarations in the same order.
-/

namespace RecordPool.Layout

variable {left right : Layout} {declarations declarations' : List Declaration}

/-- What is compared: the number of fields, what the names of the one mean in the other, and the
size of a record. -/
theorem beq_iff :
    (left == right) = true ↔
      left.fields.length = right.fields.length ∧
        (∀ field ∈ left.fields, right.field? field.name = some field) ∧
        left.recordSize = right.recordSize := by
  change (decide (left.fields.length = right.fields.length)
    && left.fields.all (fun field => right.field? field.name = some field)
    && decide (left.recordSize = right.recordSize)) = true ↔ _
  simp only [Bool.and_eq_true, decide_eq_true_eq, List.all_eq_true, and_assoc]

/-- The order of fields is not looked at. -/
theorem beq_of_perm (nodup : (right.fields.map fun field => field.name).Nodup)
    (permuted : left.fields.Perm right.fields) (size : left.recordSize = right.recordSize) :
    (left == right) = true := by
  refine beq_iff.mpr ⟨permuted.length_eq, ?_, size⟩
  intro field among
  exact field?_of_mem nodup (permuted.subset among)

/-- Each field of a built layout starts after those declared before it. -/
theorem ascending_of_built (built : ofDeclarations declarations = .ok left) :
    left.fields.Pairwise fun before after => before.offset < after.offset := by
  have inhabited {field : Field} (among : field ∈ left.fields) : field.offset < field.stop := by
    have size_pos := Nat.mul_pos (count_pos_of_built built among) field.kind.size_pos
    rw [← field_size_eq] at size_pos
    exact Nat.lt_add_of_pos_right size_pos
  have ordered : left.fields.Pairwise fun before after => before.stop ≤ after.offset := by
    obtain ⟨-, -, rfl⟩ := ofDeclarations_eq_ok_iff.mp built
    exact (placedFrom_bounds 0 declarations).2
  refine ordered.imp_of_mem ?_
  intro before after amongBefore _ follows
  exact Nat.lt_of_lt_of_le (inhabited amongBefore) follows

/-- Equal layouts have the same fields, in whichever order. -/
theorem perm_of_beq (built : ofDeclarations declarations = .ok left)
    (equal : (left == right) = true) : left.fields.Perm right.fields := by
  obtain ⟨lengths, found, -⟩ := beq_iff.mp equal
  have nodup : left.fields.Nodup := (names_nodup_of_built built).of_map
  have among : left.fields ⊆ right.fields :=
    fun field member => (mem_of_field? (found field member)).1
  exact (nodup.subperm among).perm_of_length_le (Nat.le_of_eq lengths.symm)

/-- Ascending offsets leave one order only. -/
theorem fields_eq_of_perm (built : ofDeclarations declarations = .ok left)
    (built' : ofDeclarations declarations' = .ok right)
    (permuted : left.fields.Perm right.fields) : left.fields = right.fields := by
  apply permuted.eq_of_pairwise _ (ascending_of_built built) (ascending_of_built built')
  intro field other _ _ before after
  exact absurd before (Nat.lt_asymm after)

/-- Two built layouts are equal exactly if the same was declared in the same order, a single
value being declared as a row of one.  Layouts with the same fields in another order are
different. -/
theorem beq_built_iff (declarations declarations' : List Declaration) (left right : Layout)
    (built : ofDeclarations declarations = .ok left)
    (built' : ofDeclarations declarations' = .ok right) :
    ((left == right) = true ↔ declarations = declarations') ∧
      (∀ (draft : Draft) (name : String) (kind : Kind),
        (draft.cell name kind).2 = (draft.row name kind 1).2) ∧
      (declarations.Perm declarations' → declarations ≠ declarations' →
        (left == right) = false) := by
  have same_iff : (left == right) = true ↔ declarations = declarations' := by
    constructor
    · intro equal
      have fields := fields_eq_of_perm built built' (perm_of_beq built equal)
      rw [← (tiles_of_built built).declared, ← (tiles_of_built built').declared, fields]
    · rintro rfl
      obtain rfl : left = right := Except.ok.inj (built.symm.trans built')
      exact beq_of_perm (names_nodup_of_built built) (List.Perm.refl _) rfl
  refine ⟨same_iff, fun draft name kind => rfl, ?_⟩
  intro _ reordered
  exact Bool.eq_false_iff.mpr fun equal => reordered (same_iff.mp equal)

/-- The fields of a particle declared from the last to the first. -/
theorem reversed_particle_differs :
    ∃ left right, ofDeclarations Fixture.particle.declarations = .ok left ∧
      ofDeclarations Fixture.particle.declarations.reverse = .ok right ∧
      left.recordSize = right.recordSize ∧ (left == right) = false := by
  have built : ∃ left right, ofDeclarations Fixture.particle.declarations = .ok left ∧
      ofDeclarations Fixture.particle.declarations.reverse = .ok right ∧
      left.recordSize = right.recordSize := ⟨_, _, rfl, rfl, rfl⟩
  rcases built with ⟨left, right, built, built', size⟩
  have differs := (beq_built_iff _ _ left right built built').2.2
    (List.reverse_perm _).symm (by decide)
  exact ⟨left, right, built, built', size, differs⟩

end RecordPool.Layout
