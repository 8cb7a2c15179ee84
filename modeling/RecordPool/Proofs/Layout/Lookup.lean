import RecordPool.Fixtures
import RecordPool.Proofs.Layout.Building

/-!
# Built layouts

The fields of a built layout tile its records.  Where a field lies is told twice, by the
draft at the declaration and by the layout when the field is looked up, and both tell the
same.
-/

namespace RecordPool.Layout

variable {declarations : List Declaration} {layout : Layout}

/-- The fields of a layout are the declared ones in their order, and follow one another
without gap or overlap from the start of a record to its end. -/
structure Tiles (layout : Layout) (declarations : List Declaration) : Prop where
  declared : layout.fields.map Field.toDeclaration = declarations
  starts : layout.fields.head?.map Field.offset = some 0
  follows : ∀ (index : Nat) (before after : Field), layout.fields[index]? = some before →
    layout.fields[index + 1]? = some after → after.offset = before.stop
  ends : layout.fields.getLast?.map Field.stop = some layout.recordSize
  recordSize_pos : 0 < layout.recordSize

theorem extent_pos (some_declared : declarations ≠ []) (declarable : Declarable declarations) :
    0 < extent declarations := by
  obtain ⟨declaration, later, rfl⟩ := List.exists_cons_of_ne_nil some_declared
  have inhabited : 0 < declaration.count := declarable.count_pos declaration (by simp)
  have size_pos : 0 < declaration.size := Nat.mul_pos declaration.kind.size_pos inhabited
  rw [extent_cons]
  omega

theorem tiles_of_built (built : ofDeclarations declarations = .ok layout) :
    layout.Tiles declarations := by
  obtain ⟨some_declared, declarable, rfl⟩ := ofDeclarations_eq_ok_iff.mp built
  exact {
    declared := map_placedFrom 0 declarations
    starts := by
      obtain ⟨declaration, later, rfl⟩ := List.exists_cons_of_ne_nil some_declared
      rfl
    follows := fun _ _ _ => offset_eq_stop_of_placed
    ends := getLast?_placedFrom some_declared
    recordSize_pos := extent_pos some_declared declarable }

/-- At each declaration the draft hands out the place that its field has in the layout,
as a row and, of a single value, as a cell. -/
def HandedOut (layout : Layout) (declarations : List Declaration) : Prop :=
  ∀ (earlier : List Declaration) (declaration : Declaration) (later : List Declaration),
    declarations = earlier ++ declaration :: later →
      ∃ field, layout.fields[earlier.length]? = some field ∧
        field.toDeclaration = declaration ∧
        (drafted earlier).row declaration.name declaration.kind declaration.count =
          (field.row declaration.kind, drafted (earlier ++ [declaration])) ∧
        (declaration.count = 1 →
          (drafted earlier).cell declaration.name declaration.kind =
            (⟨field.offset⟩, drafted (earlier ++ [declaration])))

theorem Declarable.of_append {earlier later : List Declaration}
    (declarable : Declarable (earlier ++ later)) : Declarable earlier where
  count_pos declaration among := declarable.count_pos declaration (by simp [among])
  names_nodup := by
    have nodup := declarable.names_nodup
    rw [List.map_append] at nodup
    exact nodup.of_append_left
  extent_lt := by
    have short := declarable.extent_lt
    rw [extent_append] at short
    omega

theorem handedOut_of_built (built : ofDeclarations declarations = .ok layout) :
    layout.HandedOut declarations := by
  obtain ⟨-, declarable, rfl⟩ := ofDeclarations_eq_ok_iff.mp built
  rintro earlier declaration later rfl
  refine ⟨_, getElem?_placedFrom earlier declaration later, rfl, ?_, ?_⟩
  · rw [drafted_concat, drafted_of_declarable declarable.of_append]
    rfl
  · intro single
    obtain ⟨name, kind, count⟩ := declaration
    obtain rfl : count = 1 := single
    rw [drafted_concat, drafted_of_declarable declarable.of_append]
    rfl

/-- How the fields of a layout are found by name, kind and shape: a name nobody has is
noticed first, then the wrong kind, then the wrong shape. -/
structure Finds (layout : Layout) : Prop where
  unknown : ∀ (name : String) (kind : Kind), (∀ field ∈ layout.fields, field.name ≠ name) →
    layout.row name kind = .error (.unknownField name) ∧
      layout.cell name kind = .error (.unknownField name)
  otherKind : ∀ field ∈ layout.fields, ∀ kind : Kind, field.kind ≠ kind →
    layout.row field.name kind = .error (.kindMismatch field.name field.kind kind) ∧
      layout.cell field.name kind = .error (.kindMismatch field.name field.kind kind)
  row : ∀ field ∈ layout.fields, layout.row field.name field.kind = .ok (field.row field.kind)
  cell : ∀ field ∈ layout.fields, field.count = 1 →
    layout.cell field.name field.kind = .ok ⟨field.offset⟩
  otherShape : ∀ field ∈ layout.fields, field.count ≠ 1 →
    layout.cell field.name field.kind = .error (.shapeMismatch field.name field.count)

theorem field?_eq_none {name : String} (unknown : ∀ field ∈ layout.fields, field.name ≠ name) :
    layout.field? name = none := by
  rw [field?, List.find?_eq_none]
  simpa using unknown

/-- With distinct names every field is found by its own. -/
theorem field?_of_mem (nodup : (layout.fields.map fun field => field.name).Nodup)
    {field : Field} (among : field ∈ layout.fields) : layout.field? field.name = some field := by
  obtain ⟨before, after, parts⟩ := List.append_of_mem among
  rw [field?, List.find?_eq_some_iff_append]
  refine ⟨by simp, before, after, parts, ?_⟩
  intro other earlier
  have apart : other.name ≠ field.name := by
    rw [parts, List.map_append, List.map_cons, List.nodup_append] at nodup
    exact nodup.2.2 _ (List.mem_map_of_mem earlier) _ List.mem_cons_self
  simpa using apart

/-- The fields of a built layout have distinct names. -/
theorem names_nodup_of_built (built : ofDeclarations declarations = .ok layout) :
    (layout.fields.map fun field => field.name).Nodup := by
  obtain ⟨-, declarable, rfl⟩ := ofDeclarations_eq_ok_iff.mp built
  rw [map_name_placedFrom]
  exact declarable.names_nodup

theorem finds_of_built (built : ofDeclarations declarations = .ok layout) : layout.Finds := by
  have known {field : Field} (among : field ∈ layout.fields) :
      layout.field? field.name = some field :=
    field?_of_mem (names_nodup_of_built built) among
  have found {field : Field} (among : field ∈ layout.fields) :
      layout.fieldOfKind field.name field.kind = .ok field := by
    simp only [fieldOfKind, known among, if_true]
  constructor
  case unknown =>
    intro name kind unknown
    have missing : layout.fieldOfKind name kind = .error (.unknownField name) := by
      simp only [fieldOfKind, field?_eq_none unknown]
    rw [Layout.row, Layout.cell, missing]
    exact ⟨rfl, rfl⟩
  case otherKind =>
    intro field among kind other
    have mismatch : layout.fieldOfKind field.name kind =
        .error (.kindMismatch field.name field.kind kind) := by
      simp only [fieldOfKind, known among, if_neg other]
    rw [Layout.row, Layout.cell, mismatch]
    exact ⟨rfl, rfl⟩
  case row =>
    intro field among
    rw [Layout.row, found among]
    rfl
  case cell =>
    intro field among single
    rw [Layout.cell, found among]
    exact if_pos single
  case otherShape =>
    intro field among several
    rw [Layout.cell, found among]
    exact if_neg several

/-- A layout is built exactly of declarations that are there, hold values, have distinct
names and fit together in the address range.  Its fields tile the record, and lie where
the draft and the lookups say.  Otherwise the error blames the first declaration that
offends. -/
theorem ofDeclarations_exact (declarations : List Declaration) :
    ((∃ layout, ofDeclarations declarations = .ok layout) ↔
        declarations ≠ [] ∧ (∀ declaration ∈ declarations, 0 < declaration.count) ∧
          (declarations.map Declaration.name).Nodup ∧
          (declarations.map Declaration.size).sum < Address.limit) ∧
      (∀ layout, ofDeclarations declarations = .ok layout →
        layout.Tiles declarations ∧ layout.HandedOut declarations ∧ layout.Finds) ∧
      (∀ error, ofDeclarations declarations = .error error ↔
        declarations = [] ∧ error = .noFields ∨
          ∃ earlier declaration later, declarations = earlier ++ declaration :: later ∧
            Declarable earlier ∧ Offends earlier declaration error) := by
  refine ⟨⟨?_, ?_⟩, ?_, fun error => ofDeclarations_eq_error_iff⟩
  · rintro ⟨layout, built⟩
    obtain ⟨some_declared, declarable, -⟩ := ofDeclarations_eq_ok_iff.mp built
    exact ⟨some_declared, declarable.count_pos, declarable.names_nodup, declarable.extent_lt⟩
  · rintro ⟨some_declared, count_pos, names_nodup, extent_lt⟩
    exact ⟨_, ofDeclarations_of_declarable some_declared ⟨count_pos, names_nodup, extent_lt⟩⟩
  · intro layout built
    exact ⟨tiles_of_built built, handedOut_of_built built, finds_of_built built⟩

/-- The fields of a particle, which mix kinds and shapes. -/
theorem particle_layout_exact :
    ∃ layout, ofDeclarations Fixture.particle.declarations = .ok layout ∧
      layout.Tiles Fixture.particle.declarations ∧
      layout.HandedOut Fixture.particle.declarations ∧ layout.Finds := by
  have built : ∃ layout, ofDeclarations Fixture.particle.declarations = .ok layout := ⟨_, rfl⟩
  rcases built with ⟨layout, built⟩
  exact ⟨layout, built, (ofDeclarations_exact _).2.1 layout built⟩

end RecordPool.Layout
