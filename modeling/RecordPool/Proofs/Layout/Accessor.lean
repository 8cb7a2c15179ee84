import RecordPool.Proofs.Computation
import RecordPool.Proofs.Layout.Lookup

/-!
# Where accessors lie

An accessor is a location that a layout handed out.  Whether that was while the layout was
declared or when the field was looked up, it lies where its field lies: inside the record,
and apart from every other field.
-/

namespace RecordPool

/-- A choice of locations: which cells, rows and points are meant. -/
structure Accessors where
  cell : (kind : Kind) → Cell kind → Prop
  row : (kind : Kind) → Row kind → Prop
  point : Point → Prop

namespace Accessors

/-- The locations inside a record of some size. -/
def inside (size : Nat) : Accessors where
  cell kind cell := cell.offset + kind.size ≤ size
  row kind row := row.offset + row.count * kind.size ≤ size
  point point := point.coordinates.offset + point.dimension * Kind.f64.size ≤ size

/-- The locations of one choice are among those of another. -/
structure Among (few many : Accessors) : Prop where
  cell : ∀ kind cell, few.cell kind cell → many.cell kind cell
  row : ∀ kind row, few.row kind row → many.row kind row
  point : ∀ point, few.point point → many.point point

end Accessors

namespace Layout

variable {declarations : List Declaration} {layout : Layout}

/-- Placed fields come one after another, between the place where they start and the one where
they end. -/
theorem placedFrom_bounds (offset : Nat) (declarations : List Declaration) :
    (∀ field ∈ placedFrom offset declarations,
      offset ≤ field.offset ∧ field.stop ≤ offset + extent declarations) ∧
    (placedFrom offset declarations).Pairwise fun before after => before.stop ≤ after.offset := by
  induction declarations generalizing offset with
  | nil => exact ⟨nofun, List.Pairwise.nil⟩
  | cons declaration later ih =>
      obtain ⟨bounds, ordered⟩ := ih (offset + declaration.size)
      rw [extent_cons]
      constructor
      · intro field among
        rcases List.mem_cons.mp among with rfl | after
        · refine ⟨Nat.le_refl _, ?_⟩
          simp only [Field.stop]
          omega
        · have bound := bounds field after
          omega
      · refine List.pairwise_cons.mpr ⟨?_, ordered⟩
        intro field after
        exact (bounds field after).1

/-- Placed fields leave out no byte between the place where they start and the one where they
end. -/
theorem exists_mem_placedFrom {offset position : Nat} {declarations : List Declaration}
    (started : offset ≤ position) (ending : position < offset + extent declarations) :
    ∃ field ∈ placedFrom offset declarations, field.offset ≤ position ∧ position < field.stop := by
  induction declarations generalizing offset with
  | nil =>
      rw [extent_nil] at ending
      omega
  | cons declaration later ih =>
      rw [extent_cons] at ending
      by_cases within : position < offset + declaration.size
      · exact ⟨_, List.mem_cons_self, started, within⟩
      · obtain ⟨field, among, covers⟩ := ih (Nat.le_of_not_lt within) (by omega)
        exact ⟨field, List.mem_cons_of_mem _ among, covers⟩

/-- A built record is not longer than there are addresses. -/
theorem recordSize_lt_of_built (built : ofDeclarations declarations = .ok layout) :
    layout.recordSize < Address.limit := by
  obtain ⟨-, declarable, rfl⟩ := ofDeclarations_eq_ok_iff.mp built
  exact declarable.extent_lt

/-- A field lies inside the record. -/
theorem stop_le_of_built (built : ofDeclarations declarations = .ok layout) {field : Field}
    (among : field ∈ layout.fields) : field.stop ≤ layout.recordSize := by
  obtain ⟨-, -, rfl⟩ := ofDeclarations_eq_ok_iff.mp built
  simpa using ((placedFrom_bounds 0 declarations).1 field among).2

/-- Every byte of the record belongs to a field. -/
theorem exists_field_of_built (built : ofDeclarations declarations = .ok layout) {position : Nat}
    (inside : position < layout.recordSize) :
    ∃ field ∈ layout.fields, field.offset ≤ position ∧ position < field.stop := by
  obtain ⟨-, -, rfl⟩ := ofDeclarations_eq_ok_iff.mp built
  exact exists_mem_placedFrom (Nat.zero_le position) (by simpa using inside)

theorem field_size_eq (field : Field) : field.size = field.count * field.kind.size :=
  Nat.mul_comm _ _

/-- All values of a field lie inside the record. -/
theorem values_le_of_built (built : ofDeclarations declarations = .ok layout) {field : Field}
    (among : field ∈ layout.fields) :
    field.offset + field.count * field.kind.size ≤ layout.recordSize := by
  rw [← field_size_eq]
  exact stop_le_of_built built among

/-- A field has values. -/
theorem count_pos_of_built (built : ofDeclarations declarations = .ok layout) {field : Field}
    (among : field ∈ layout.fields) : 0 < field.count := by
  obtain ⟨-, declarable, rfl⟩ := ofDeclarations_eq_ok_iff.mp built
  have declared := List.mem_map_of_mem (f := Field.toDeclaration) among
  rw [map_placedFrom] at declared
  exact declarable.count_pos _ declared

/-- Two fields lie apart. -/
theorem apart_of_built (built : ofDeclarations declarations = .ok layout) {field other : Field}
    (among : field ∈ layout.fields) (amongOther : other ∈ layout.fields)
    (different : other ≠ field) : other.stop ≤ field.offset ∨ field.stop ≤ other.offset := by
  obtain ⟨-, -, rfl⟩ := ofDeclarations_eq_ok_iff.mp built
  have ordered := List.pairwise_iff_getElem.mp (placedFrom_bounds 0 declarations).2
  obtain ⟨left, leftInside, rfl⟩ := List.getElem_of_mem among
  obtain ⟨right, rightInside, rfl⟩ := List.getElem_of_mem amongOther
  rcases Nat.lt_trichotomy left right with before | rfl | after
  · exact Or.inr (ordered left right leftInside rightInside before)
  · exact absurd rfl different
  · exact Or.inl (ordered right left rightInside leftInside after)

/-- The locations that the lookups of a layout give. -/
def accessors (layout : Layout) : Accessors where
  cell kind cell := ∃ name, layout.cell name kind = .ok cell
  row kind row := ∃ name, layout.row name kind = .ok row
  point point := ∃ name, layout.point name = .ok point

theorem fieldOfKind_eq_ok {name : String} {kind : Kind} {field : Field}
    (found : layout.fieldOfKind name kind = .ok field) :
    layout.field? name = some field ∧ field.kind = kind := by
  unfold fieldOfKind at found
  cases known : layout.field? name with
  | none =>
      rw [known] at found
      cases found
  | some other =>
      simp only [known] at found
      by_cases same : other.kind = kind
      · rw [if_pos same] at found
        cases found
        exact ⟨rfl, same⟩
      · rw [if_neg same] at found
        cases found

theorem mem_of_field? {name : String} {field : Field} (found : layout.field? name = some field) :
    field ∈ layout.fields ∧ field.name = name :=
  ⟨List.mem_of_find?_eq_some found, by simpa using List.find?_some found⟩

/-- A cell that is looked up is the place of a field of one value. -/
theorem cell_eq_ok {name : String} {kind : Kind} {cell : Cell kind}
    (found : layout.cell name kind = .ok cell) :
    ∃ field, layout.field? name = some field ∧ field.kind = kind ∧ field.count = 1 ∧
      cell.offset = field.offset := by
  rcases except_bind_eq_ok_iff.mp found with ⟨field, known, shaped⟩
  obtain ⟨named, same⟩ := fieldOfKind_eq_ok known
  by_cases single : field.count = 1
  · rw [if_pos single] at shaped
    cases shaped
    exact ⟨field, named, same, single, rfl⟩
  · rw [if_neg single] at shaped
    cases shaped

/-- A row that is looked up is the place of a field. -/
theorem row_eq_ok {name : String} {kind : Kind} {row : Row kind}
    (found : layout.row name kind = .ok row) :
    ∃ field, layout.field? name = some field ∧ field.kind = kind ∧ row.offset = field.offset ∧
      row.count = field.count := by
  rcases except_bind_eq_ok_iff.mp found with ⟨field, known, made⟩
  obtain ⟨named, same⟩ := fieldOfKind_eq_ok known
  cases made
  exact ⟨field, named, same, rfl, rfl⟩

theorem point_eq_ok {name : String} {point : Point} (found : layout.point name = .ok point) :
    layout.row name .f64 = .ok point.coordinates := by
  rcases except_bind_eq_ok_iff.mp found with ⟨coordinates, known, made⟩
  cases made
  exact known

/-- What is looked up lies inside the record. -/
theorem accessors_inside (built : ofDeclarations declarations = .ok layout) :
    layout.accessors.Among (.inside layout.recordSize) := by
  have row_inside {name : String} {kind : Kind} {row : Row kind}
      (found : layout.row name kind = .ok row) :
      row.offset + row.count * kind.size ≤ layout.recordSize := by
    obtain ⟨field, named, rfl, offset, count⟩ := row_eq_ok found
    rw [offset, count]
    exact values_le_of_built built (mem_of_field? named).1
  constructor
  case cell =>
    rintro kind cell ⟨name, found⟩
    obtain ⟨field, named, rfl, single, offset⟩ := cell_eq_ok found
    have inside := values_le_of_built built (mem_of_field? named).1
    rw [single, Nat.one_mul, ← offset] at inside
    exact inside
  case row =>
    rintro kind row ⟨name, found⟩
    exact row_inside found
  case point =>
    rintro point ⟨name, found⟩
    exact row_inside (point_eq_ok found)

/-- The cells that can be held of a field: the one handed out when a single value was declared,
and the one that is looked up. -/
inductive HasCell (layout : Layout) (declarations : List Declaration) (field : Field) :
    (kind : Kind) → Cell kind → Prop where
  | handedOut {earlier later : List Declaration}
      (declared : declarations = earlier ++ field.toDeclaration :: later)
      (single : field.count = 1) :
      HasCell layout declarations field field.kind
        ((drafted earlier).cell field.name field.kind).1
  | lookedUp {kind : Kind} {cell : Cell kind} (found : layout.cell field.name kind = .ok cell) :
      HasCell layout declarations field kind cell

/-- The rows that can be held of a field: the one handed out when it was declared, and the one
that is looked up. -/
inductive HasRow (layout : Layout) (declarations : List Declaration) (field : Field) :
    (kind : Kind) → Row kind → Prop where
  | handedOut {earlier later : List Declaration}
      (declared : declarations = earlier ++ field.toDeclaration :: later) :
      HasRow layout declarations field field.kind
        ((drafted earlier).row field.name field.kind field.count).1
  | lookedUp {kind : Kind} {row : Row kind} (found : layout.row field.name kind = .ok row) :
      HasRow layout declarations field kind row

/-- The accessors of single values and of rows that can be held of a field. -/
def accessorsOf (layout : Layout) (declarations : List Declaration) (field : Field) :
    Accessors where
  cell := layout.HasCell declarations field
  row := layout.HasRow declarations field
  point _ := False

theorem eq_of_name_eq (built : ofDeclarations declarations = .ok layout) {field other : Field}
    (among : field ∈ layout.fields) (amongOther : other ∈ layout.fields)
    (same : other.name = field.name) : other = field := by
  have nodup := names_nodup_of_built built
  have found := field?_of_mem nodup among
  rw [← same, field?_of_mem nodup amongOther] at found
  exact Option.some.inj found

/-- Whichever cell is held of a field, it is its place. -/
theorem HasCell.place (built : ofDeclarations declarations = .ok layout) {field : Field}
    (among : field ∈ layout.fields) {kind : Kind} {cell : Cell kind}
    (held : layout.HasCell declarations field kind cell) :
    kind = field.kind ∧ field.count = 1 ∧ cell.offset = field.offset := by
  cases held with
  | handedOut declared single =>
      obtain ⟨placed, at_index, same, -, handedOut⟩ :=
        handedOut_of_built built _ _ _ declared
      obtain rfl : placed = field :=
        eq_of_name_eq built among (List.mem_of_getElem? at_index) (congrArg Declaration.name same)
      refine ⟨rfl, single, ?_⟩
      rw [handedOut single]
  | lookedUp found =>
      obtain ⟨other, named, same, single, offset⟩ := cell_eq_ok found
      obtain ⟨amongOther, name⟩ := mem_of_field? named
      obtain rfl := eq_of_name_eq built among amongOther name
      exact ⟨same.symm, single, offset⟩

/-- Whichever row is held of a field, it is its place. -/
theorem HasRow.place (built : ofDeclarations declarations = .ok layout) {field : Field}
    (among : field ∈ layout.fields) {kind : Kind} {row : Row kind}
    (held : layout.HasRow declarations field kind row) :
    kind = field.kind ∧ row.count = field.count ∧ row.offset = field.offset := by
  cases held with
  | handedOut declared =>
      obtain ⟨placed, at_index, same, handedOut, -⟩ :=
        handedOut_of_built built _ _ _ declared
      obtain rfl : placed = field :=
        eq_of_name_eq built among (List.mem_of_getElem? at_index) (congrArg Declaration.name same)
      refine ⟨rfl, ?_, ?_⟩ <;> rw [handedOut] <;> rfl
  | lookedUp found =>
      obtain ⟨other, named, same, offset, count⟩ := row_eq_ok found
      obtain ⟨amongOther, name⟩ := mem_of_field? named
      obtain rfl := eq_of_name_eq built among amongOther name
      exact ⟨same.symm, count, offset⟩

/-- What is held of a field lies inside the record. -/
theorem accessorsOf_inside (built : ofDeclarations declarations = .ok layout) {field : Field}
    (among : field ∈ layout.fields) :
    (layout.accessorsOf declarations field).Among (.inside layout.recordSize) := by
  have inside := values_le_of_built built among
  constructor
  case cell =>
    intro kind cell held
    obtain ⟨rfl, single, offset⟩ := HasCell.place built among held
    rw [single, Nat.one_mul, ← offset] at inside
    exact inside
  case row =>
    intro kind row held
    obtain ⟨rfl, count, offset⟩ := HasRow.place built among held
    rw [← count, ← offset] at inside
    exact inside
  case point => exact fun _ => False.elim

end Layout

end RecordPool
