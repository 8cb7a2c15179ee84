import RecordPool.Layout.Draft
import Mathlib.Algebra.BigOperators.Group.List.Basic
import Mathlib.Algebra.GroupWithZero.Nat
import Mathlib.Data.List.Induction
import Mathlib.Data.List.Nodup

/-!
# Building layouts

A draft is followed along its declarations.  As long as nothing offends, its fields are the
declarations placed one after another and its size is what they take together; at the first
offence it stops changing.  So a list of declarations says exactly whether a layout can be
built of it, what the layout is and, if there is none, which declaration is to blame.
-/

namespace RecordPool.Layout

/-- The number of bytes that declarations take together. -/
def extent (declarations : List Declaration) : Nat :=
  (declarations.map Declaration.size).sum

@[simp]
theorem extent_nil : extent [] = 0 :=
  rfl

@[simp]
theorem extent_cons (declaration : Declaration) (later : List Declaration) :
    extent (declaration :: later) = declaration.size + extent later := by
  simp [extent]

@[simp]
theorem extent_append (earlier later : List Declaration) :
    extent (earlier ++ later) = extent earlier + extent later := by
  simp [extent]

/-- Declarations as fields, each starting where the one before it ends. -/
def placedFrom : (offset : Nat) → List Declaration → List Field
  | _, [] => []
  | offset, declaration :: later =>
      { declaration with offset := offset } :: placedFrom (offset + declaration.size) later

theorem placedFrom_append (offset : Nat) (earlier later : List Declaration) :
    placedFrom offset (earlier ++ later) =
      placedFrom offset earlier ++ placedFrom (offset + extent earlier) later := by
  induction earlier generalizing offset with
  | nil => rfl
  | cons declaration earlier ih =>
      rw [List.cons_append, placedFrom, ih, extent_cons, Nat.add_assoc]
      rfl

/-- Placing adds the offsets and nothing else. -/
@[simp]
theorem map_placedFrom (offset : Nat) (declarations : List Declaration) :
    (placedFrom offset declarations).map Field.toDeclaration = declarations := by
  induction declarations generalizing offset with
  | nil => rfl
  | cons declaration later ih => rw [placedFrom, List.map_cons, ih]

theorem map_name_placedFrom (offset : Nat) (declarations : List Declaration) :
    (placedFrom offset declarations).map (fun field => field.name) =
      declarations.map Declaration.name := by
  conv_rhs => rw [← map_placedFrom offset declarations, List.map_map]
  rfl

@[simp]
theorem length_placedFrom (offset : Nat) (declarations : List Declaration) :
    (placedFrom offset declarations).length = declarations.length := by
  rw [← List.length_map Field.toDeclaration, map_placedFrom]

/-- A field starts at what the declarations before it take. -/
theorem getElem?_placedFrom (earlier : List Declaration) (declaration : Declaration)
    (later : List Declaration) :
    (placedFrom 0 (earlier ++ declaration :: later))[earlier.length]? =
      some { declaration with offset := extent earlier } := by
  rw [placedFrom_append, List.getElem?_append_right (by simp), length_placedFrom,
    Nat.sub_self, Nat.zero_add]
  rfl

/-- Placed fields follow one another without a gap. -/
theorem offset_eq_stop_of_placed {declarations : List Declaration} {index : Nat}
    {before after : Field} (left : (placedFrom 0 declarations)[index]? = some before)
    (right : (placedFrom 0 declarations)[index + 1]? = some after) :
    after.offset = before.stop := by
  have inside : index + 1 < declarations.length := by
    simpa using (List.getElem?_eq_some_iff.mp right).1
  have parts : declarations =
      declarations.take index ++ declarations[index] ::
        declarations[index + 1] :: declarations.drop (index + 2) := by
    rw [List.getElem_cons_drop, List.getElem_cons_drop, List.take_append_drop]
  generalize declarations[index] = first at parts
  generalize declarations[index + 1] = second at parts
  have length : (declarations.take index).length = index := by
    rw [List.length_take]
    omega
  generalize declarations.take index = earlier at parts length
  generalize declarations.drop (index + 2) = later at parts
  subst parts length
  rw [getElem?_placedFrom] at left
  have next := getElem?_placedFrom (earlier ++ [first]) second later
  rw [List.append_assoc, List.length_append] at next
  have found := next.symm.trans right
  simp only [Option.some.injEq] at left found
  subst left found
  simp [Field.stop]

/-- The last of placed fields ends where they all end. -/
theorem getLast?_placedFrom {declarations : List Declaration} (some_declared : declarations ≠ []) :
    (placedFrom 0 declarations).getLast?.map Field.stop = some (extent declarations) := by
  obtain ⟨earlier, last, rfl⟩ := (List.eq_nil_or_concat declarations).resolve_left some_declared
  simp [placedFrom_append, placedFrom, Field.stop]

/-- Declarations that can stand one after another. -/
structure Declarable (declarations : List Declaration) : Prop where
  count_pos : ∀ declaration ∈ declarations, 0 < declaration.count
  names_nodup : (declarations.map Declaration.name).Nodup
  extent_lt : extent declarations < Address.limit

/-- What is wrong with a declaration that comes after others.  Each offence is looked for
only where there is none of those before it. -/
inductive Offends (earlier : List Declaration) (declaration : Declaration) : Error → Prop where
  | emptyArray (empty : declaration.count = 0) :
      Offends earlier declaration (.emptyArray declaration.name)
  | duplicateField (inhabited : 0 < declaration.count)
      (known : declaration.name ∈ earlier.map Declaration.name) :
      Offends earlier declaration (.duplicateField declaration.name)
  | sizeOverflow (inhabited : 0 < declaration.count)
      (fresh : declaration.name ∉ earlier.map Declaration.name)
      (too_long : Address.limit ≤ extent earlier + declaration.size) :
      Offends earlier declaration (.sizeOverflow declaration.name)

theorem declarable_nil : Declarable [] where
  count_pos := by simp
  names_nodup := by simp
  extent_lt := by simp [Address.limit, UInt64.size]

/-- One more declaration can stand exactly if nothing is wrong with it. -/
theorem declarable_concat_iff {earlier : List Declaration} {declaration : Declaration} :
    Declarable (earlier ++ [declaration]) ↔
      Declarable earlier ∧ ∀ error, ¬ Offends earlier declaration error := by
  constructor
  · rintro ⟨count_pos, names_nodup, extent_lt⟩
    rw [List.map_append, List.map_singleton, List.nodup_append_comm,
      List.singleton_append, List.nodup_cons] at names_nodup
    simp only [extent_append, extent_cons, extent_nil, Nat.add_zero] at extent_lt
    have inhabited := count_pos declaration (by simp)
    refine ⟨⟨fun other among => count_pos other (by simp [among]), names_nodup.2, by omega⟩, ?_⟩
    rintro error (empty | ⟨_, known⟩ | ⟨_, _, too_long⟩)
    · omega
    · exact names_nodup.1 known
    · omega
  · rintro ⟨declarable, inoffensive⟩
    have inhabited : 0 < declaration.count :=
      Nat.pos_of_ne_zero fun empty => inoffensive _ (.emptyArray empty)
    have fresh : declaration.name ∉ earlier.map Declaration.name :=
      fun known => inoffensive _ (.duplicateField inhabited known)
    have short : extent earlier + declaration.size < Address.limit :=
      Nat.lt_of_not_le fun too_long => inoffensive _ (.sizeOverflow inhabited fresh too_long)
    refine ⟨?_, ?_, by simpa using short⟩
    · intro other among
      rcases List.mem_append.mp among with before | last
      · exact declarable.count_pos other before
      · rw [List.mem_singleton.mp last]
        exact inhabited
    · rw [List.map_append, List.map_singleton, List.nodup_append_comm,
        List.singleton_append, List.nodup_cons]
      exact ⟨fresh, declarable.names_nodup⟩

/-- Of declarations that cannot all stand there is a first one that offends. -/
theorem exists_first_offence {declarations : List Declaration}
    (undeclarable : ¬ Declarable declarations) :
    ∃ earlier declaration later error, declarations = earlier ++ declaration :: later ∧
      Declarable earlier ∧ Offends earlier declaration error := by
  -- From the end, as a draft takes the declarations up: what is before the last is settled.
  induction declarations using List.reverseRecOn with
  | nil => exact absurd declarable_nil undeclarable
  | append_singleton declarations last ih =>
      by_cases before : Declarable declarations
      · rw [declarable_concat_iff] at undeclarable
        push Not at undeclarable
        obtain ⟨error, offence⟩ := undeclarable before
        exact ⟨declarations, last, [], error, rfl, before, offence⟩
      · obtain ⟨earlier, declaration, later, error, rfl, sound, offence⟩ := ih before
        exact ⟨earlier, declaration, later ++ [last], error, by simp, sound, offence⟩

/-! ## Drafts along their declarations -/

/-- The draft after some declarations. -/
def drafted (declarations : List Declaration) : Draft :=
  declarations.foldl Draft.declare {}

theorem drafted_concat (earlier : List Declaration) (declaration : Declaration) :
    drafted (earlier ++ [declaration]) = (drafted earlier).declare declaration := by
  rw [drafted, List.foldl_append]
  rfl

/-- A draft objects to what offends against the declarations placed in it. -/
theorem objection?_eq_some_iff (earlier : List Declaration) (declaration : Declaration)
    (error : Error) :
    (Draft.mk (placedFrom 0 earlier) (extent earlier) none).objection? declaration = some error ↔
      Offends earlier declaration error := by
  have known : ((placedFrom 0 earlier).any fun field => field.name = declaration.name) = true ↔
      declaration.name ∈ earlier.map Declaration.name := by
    rw [← map_name_placedFrom 0 earlier]
    simp
  unfold Draft.objection?
  constructor
  · split
    case isTrue empty =>
      rintro ⟨⟩
      exact .emptyArray empty
    case isFalse inhabited =>
      split
      case isTrue twice =>
        rintro ⟨⟩
        exact .duplicateField (Nat.pos_of_ne_zero inhabited) (known.mp twice)
      case isFalse fresh =>
        split
        case isTrue too_long =>
          rintro ⟨⟩
          exact .sizeOverflow (Nat.pos_of_ne_zero inhabited) (mt known.mpr fresh) too_long
        case isFalse => simp
  · rintro (empty | ⟨inhabited, twice⟩ | ⟨inhabited, fresh, too_long⟩)
    · rw [if_pos empty]
    · rw [if_neg (by omega), if_pos (known.mpr twice)]
    · rw [if_neg (by omega), if_neg (mt known.mp fresh), if_pos too_long]

/-- As long as nothing offends, the declarations are placed one after another. -/
theorem drafted_of_declarable {declarations : List Declaration}
    (declarable : Declarable declarations) :
    drafted declarations = ⟨placedFrom 0 declarations, extent declarations, none⟩ := by
  induction declarations using List.reverseRecOn with
  | nil => rfl
  | append_singleton declarations last ih =>
      obtain ⟨before, inoffensive⟩ := declarable_concat_iff.mp declarable
      have unobjected : (Draft.mk (placedFrom 0 declarations) (extent declarations)
          none).objection? last = none := by
        rw [Option.eq_none_iff_forall_ne_some]
        intro error objection
        exact inoffensive error ((objection?_eq_some_iff _ _ _).mp objection)
      rw [drafted_concat, ih before, Draft.declare]
      simp only [unobjected, placedFrom_append, extent_append, extent_cons, extent_nil,
        Nat.zero_add, Nat.add_zero]
      rfl

/-- A draft with an error stays as it is. -/
theorem foldl_declare_of_error {draft : Draft} {error : Error} (failed : draft.error = some error)
    (later : List Declaration) : later.foldl Draft.declare draft = draft := by
  induction later with
  | nil => rfl
  | cons declaration later ih =>
      have unchanged : draft.declare declaration = draft := by
        simp only [Draft.declare, failed]
      rw [List.foldl_cons, unchanged, ih]

/-- The first offence is what a draft remembers. -/
theorem drafted_error_of_offends {earlier : List Declaration} {declaration : Declaration}
    {error : Error} (declarable : Declarable earlier)
    (offence : Offends earlier declaration error) (later : List Declaration) :
    (drafted (earlier ++ declaration :: later)).error = some error := by
  have stopped : (drafted (earlier ++ [declaration])).error = some error := by
    rw [drafted_concat, drafted_of_declarable declarable, Draft.declare]
    simp only [(objection?_eq_some_iff _ _ _).mpr offence]
  have together : drafted (earlier ++ declaration :: later) =
      later.foldl Draft.declare (drafted (earlier ++ [declaration])) := by
    rw [drafted, drafted, ← List.foldl_append, List.append_assoc]
    rfl
  rw [together, foldl_declare_of_error stopped, stopped]

theorem ofDeclarations_of_declarable {declarations : List Declaration}
    (some_declared : declarations ≠ []) (declarable : Declarable declarations) :
    ofDeclarations declarations = .ok ⟨placedFrom 0 declarations, extent declarations⟩ := by
  have inhabited : (placedFrom 0 declarations).isEmpty = false := by
    rw [List.isEmpty_eq_false_iff, ← List.length_pos_iff, length_placedFrom, List.length_pos_iff]
    exact some_declared
  rw [ofDeclarations, ← drafted, drafted_of_declarable declarable, Draft.build]
  simp only [inhabited, Bool.false_eq_true, if_false]

theorem ofDeclarations_of_offends {earlier : List Declaration} {declaration : Declaration}
    {error : Error} (declarable : Declarable earlier)
    (offence : Offends earlier declaration error) (later : List Declaration) :
    ofDeclarations (earlier ++ declaration :: later) = .error error := by
  have failed := drafted_error_of_offends declarable offence later
  rw [ofDeclarations, ← drafted, Draft.build]
  simp only [failed]

/-- A layout is built of the declarations exactly if there are some and all can stand, and
then it is the declarations placed one after another. -/
theorem ofDeclarations_eq_ok_iff {declarations : List Declaration} {layout : Layout} :
    ofDeclarations declarations = .ok layout ↔
      declarations ≠ [] ∧ Declarable declarations ∧
        layout = ⟨placedFrom 0 declarations, extent declarations⟩ := by
  constructor
  · intro built
    by_cases declarable : Declarable declarations
    · have some_declared : declarations ≠ [] := by
        rintro rfl
        cases built
      rw [ofDeclarations_of_declarable some_declared declarable] at built
      cases built
      exact ⟨some_declared, declarable, rfl⟩
    · obtain ⟨earlier, declaration, later, error, rfl, sound, offence⟩ :=
        exists_first_offence declarable
      rw [ofDeclarations_of_offends sound offence] at built
      cases built
  · rintro ⟨some_declared, declarable, rfl⟩
    exact ofDeclarations_of_declarable some_declared declarable

/-- No layout is built exactly if nothing is declared or some declaration is the first to
offend, and then that is the error. -/
theorem ofDeclarations_eq_error_iff {declarations : List Declaration} {error : Error} :
    ofDeclarations declarations = .error error ↔
      declarations = [] ∧ error = .noFields ∨
        ∃ earlier declaration later, declarations = earlier ++ declaration :: later ∧
          Declarable earlier ∧ Offends earlier declaration error := by
  constructor
  · intro failed
    by_cases declarable : Declarable declarations
    · by_cases none_declared : declarations = []
      · subst none_declared
        cases failed
        exact .inl ⟨rfl, rfl⟩
      · rw [ofDeclarations_of_declarable none_declared declarable] at failed
        cases failed
    · obtain ⟨earlier, declaration, later, found, rfl, sound, offence⟩ :=
        exists_first_offence declarable
      rw [ofDeclarations_of_offends sound offence] at failed
      cases failed
      exact .inr ⟨earlier, declaration, later, rfl, sound, offence⟩
  · rintro (⟨rfl, rfl⟩ | ⟨earlier, declaration, later, rfl, sound, offence⟩)
    · rfl
    · exact ofDeclarations_of_offends sound offence later

end RecordPool.Layout
