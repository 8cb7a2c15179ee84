import RecordPool.Proofs.DenseIds
import RecordPool.Proofs.Pool.CursorWalk
import RecordPool.Proofs.Pool.FieldIsolation
import RecordPool.Proofs.Pool.HighWater
import RecordPool.Proofs.Slab.Exhaustion

/-!
# Records carried over into another pool

The live records of a pool are carried over by their numbers: for each in turn a record is
created in another pool, and the bytes of the fields are written into it one field after
another.  A pool just opened hands out the numbers as ids, in whatever order fields are
written they make up the whole record, and so nothing of the records is lost.
-/

namespace RecordPool

/-- The bytes of a field. -/
def Field.span (field : Field) : Span :=
  ⟨field.offset, field.size⟩

namespace Pool

open Layout LawfulStore

variable {σ τ : Type} [Store σ] [Store τ]

/-- Writes the bytes of a field of a record into a record of another pool.  The location of the
field is looked up by its name and the kind it was declared with. -/
def transferField (source : Pool σ) (reading writing : Proxy) (field : Field) :
    EStateM (Failure Error) (Pool τ) Unit := do
  match source.layout.row field.name field.kind with
  | .error error => throw (.refused (.layout error))
  | .ok row =>
      let image ← EStateM.adaptExcept .fault (ofExcept (row.image source reading))
      EStateM.adaptExcept .fault (row.setImage writing image)

/-- Creates a record and writes fields of a record of another pool into it, one after another.
Yields the id of the record created. -/
def transferRecord (source : Pool σ) (reader writer : Proxy) (fields : List Field) (id : Nat) :
    EStateM (Failure Error) (Pool τ) Nat := do
  let writing ← create writer
  match source.lookUp id reader with
  | .error error => throw (.refused error)
  | .ok reading =>
      fields.forM (transferField source reading writing)
      return writing.index

/-- Carries over the records of `count` numbers from one on, and ends at the first number that
there is not.  Yields the ids of the records created, in order. -/
def transferFrom (source : Pool σ) (numbering : DenseIds) (reader writer : Proxy)
    (order : Nat → List Field) (number : Nat) :
    (count : Nat) → EStateM (Failure Error) (Pool τ) (List Nat)
  | 0 => return []
  | count + 1 => do
      match numbering.id? number with
      | none => return []
      | some id =>
          let created ← transferRecord source reader writer (order number) id
          let others ← transferFrom source numbering reader writer order (number + 1) count
          return created :: others

/-- Carries over all live records of a pool by their numbers.  The fields of each may be written
in an order of its own. -/
def transfer (source : Pool σ) (reader writer : Proxy) (order : Nat → List Field) :
    EStateM (Failure Error) (Pool τ) (List Nat) :=
  let numbering := DenseIds.ofPool source
  transferFrom source numbering reader writer order 0 numbering.count

/-- The live records of a pool are there in another pool under their numbers, byte for byte, and
nothing else is live. -/
structure CarriedOver (source : Pool σ) (after : Pool τ) : Prop where
  count_eq : (DenseIds.ofPool source).count = source.liveCount
  liveCount_eq : after.liveCount = source.liveCount
  liveIds_eq : after.liveIds = List.range source.liveCount
  record_eq : ∀ number id, (DenseIds.ofPool source).id? number = some id →
    source.isLive id = true ∧ ∃ contents, source.record id = .ok ⟨id, contents⟩ ∧
      after.record number = .ok ⟨number, contents⟩

/-! ## Pools that are filled -/

variable [LawfulStore σ] [LawfulStore τ] {source : Pool σ} {opened pool : Pool τ}
  {declarations : List Declaration} {count : Nat}

/-- A pool just opened in which some records were created since, and none deleted. -/
structure Filled (opened pool : Pool τ) (count : Nat) : Prop where
  id_eq : pool.id = opened.id
  layout_eq : pool.layout = opened.layout
  initializer_eq : pool.initializer = none
  listeners_eq : pool.lifecycleListeners = []
  continues : Slab.Continues opened.slab pool.slab
  orderly : pool.slab.Orderly (Finset.range count)
  freed_eq : pool.slab.freed = []

omit [LawfulStore τ] in
/-- Where there is no initializer and nobody listens, a record that is allotted is created. -/
theorem finishCreation_of_nothing_to_do (noInitializer : pool.initializer = none)
    (nobody : pool.lifecycleListeners = []) (proxy : Proxy) (index : Nat) :
    finishCreation proxy index pool = .ok (proxy.pointAt index) pool := by
  have readied : prepare index pool = .ok () pool := by
    simp only [prepare, bind_apply, get_apply, noInitializer]
    rfl
  have told : announce lifecycleListeners .created index pool = .ok () pool := by
    simp only [announce, bind_apply, get_apply, nobody]
    rfl
  simp only [finishCreation, bind_apply, adaptExcept_apply, readied, told, pure_apply]

namespace Filled

theorem blank {store : τ} (sound : Sound store) (id : PoolId) (layout : Layout)
    (config : Config) :
    Filled (Pool.blank id layout store config) (Pool.blank id layout store config) 0 where
  id_eq := rfl
  layout_eq := rfl
  initializer_eq := rfl
  listeners_eq := rfl
  continues := Slab.Continues.refl sound
  orderly := orderly_blank sound id layout config
  freed_eq := rfl

theorem highWater_eq (filled : Filled opened pool count) : pool.highWater = count := by
  rw [← liveCount_eq_highWater filled.orderly filled.freed_eq, liveCount_eq filled.orderly,
    Finset.card_range]

theorem seated (filled : Filled opened pool count) (seated : opened.Seated) : pool.Seated where
  sound := filled.continues.sound
  elementSize_eq := by
    rw [filled.continues.elementSize_eq, filled.layout_eq]
    exact seated.elementSize_eq

/-- The ids of a filled pool are the numbers below their count. -/
theorem liveIds_eq (filled : Filled opened pool count) : pool.liveIds = List.range count := by
  rw [Pool.liveIds_eq filled.orderly, Finset.sort_range]

theorem edited (filled : Filled opened pool count) {after : Pool τ} {index : Nat}
    {contents : Buffer} (edited : Edited pool after index contents) :
    Filled opened after count := by
  rcases edited with ⟨store, after_eq, becomes⟩
  have storeOnly : Slab.StoreOnly pool.slab (pool.slab.withStore store) :=
    Slab.StoreOnly.of_becomes (Nat.le_refl _) becomes
  rw [after_eq]
  exact {
    id_eq := filled.id_eq
    layout_eq := filled.layout_eq
    initializer_eq := filled.initializer_eq
    listeners_eq := filled.listeners_eq
    continues := filled.continues.trans storeOnly.continues
    orderly := filled.orderly.storeOnly storeOnly
    freed_eq := filled.freed_eq }

/-- While there is room the next record is created, and what the elements held stays. -/
theorem create_ok (filled : Filled opened pool count) (ample : Store.Ample opened.slab.store)
    (room : count < Store.maxSize opened.slab.store) {writer : Proxy}
    (own : writer.owner = opened.id) :
    ∃ after, create writer pool = .ok (writer.pointAt count) after ∧
      Filled opened after (count + 1) ∧
      Elements.contents after.slab.store = Elements.contents pool.slab.store := by
  have mark : pool.slab.highWater = count := filled.highWater_eq
  have notExhausted : pool.slab.highWater ≠ Store.maxSize pool.slab.store := by
    rw [mark, filled.continues.maxSize_eq]
    exact Nat.ne_of_lt room
  rcases Slab.append_of_not_exhausted filled.orderly (filled.continues.ample ample) notExhausted
    with ⟨store, appended, -⟩
  have allotted : Slab.allocate pool.slab =
      .ok count (pool.slab.withStore store).handOutNext := by
    rw [Slab.allocate_of_none_freed filled.freed_eq, appended, mark]
  have orderlyAfter := filled.orderly.allocate
  have continues := Slab.allocate_continues filled.orderly
  rw [allotted] at orderlyAfter continues
  have filledAfter :
      Filled opened (pool.withSlab (pool.slab.withStore store).handOutNext) (count + 1) := {
    id_eq := filled.id_eq
    layout_eq := filled.layout_eq
    initializer_eq := filled.initializer_eq
    listeners_eq := filled.listeners_eq
    continues := filled.continues.trans continues
    orderly := by
      rw [Finset.range_add_one]
      exact orderlyAfter.2.2
    freed_eq := filled.freed_eq }
  refine ⟨_, ?_, filledAfter, Slab.contents_allocate filled.orderly.sound allotted⟩
  rw [create_of_own (own.trans filled.id_eq.symm), allotted]
  exact finishCreation_of_nothing_to_do filledAfter.initializer_eq filledAfter.listeners_eq
    writer count

end Filled

/-! ## Records that are carried over -/

/-- A field is written with the bytes that it has in the other record. -/
theorem transferField_ok (built : ofDeclarations declarations = .ok source.layout)
    (seatedSource : source.Seated) (seated : pool.Seated)
    (sameLayout : pool.layout = source.layout) {reading writing : Proxy}
    (reads : source.Reaches reading) (writes : pool.Reaches writing) {field : Field}
    (among : field ∈ source.layout.fields) :
    ∃ after, transferField source reading writing field pool = .ok () after ∧
      Edited pool after writing.index ((pool.shown writing.index).contents.writeAt field.offset
        (field.image (source.shown reading.index).contents)) := by
  have found := (finds_of_built built).row field among
  have image := (showsImage_of_bytesFrom built among seatedSource reads rfl).row _
    (.lookedUp found)
  have builtTarget : ofDeclarations declarations = .ok pool.layout := by rwa [sameLayout]
  have amongTarget : field ∈ pool.layout.fields := by rwa [sameLayout]
  have foundTarget : pool.layout.row field.name field.kind = .ok (field.row field.kind) := by
    rwa [sameLayout]
  have length := field.length_image (source.shown reading.index).contents
  rw [field_size_eq] at length
  have fits : (FieldWrite.rowImage (field.row field.kind)
      (field.image (source.shown reading.index).contents)).Fits
        (pool.layout.accessorsOf declarations field) := ⟨.lookedUp foundTarget, length⟩
  obtain ⟨bytes, lands⟩ := FieldWrite.exists_lands builtTarget amongTarget fits
  obtain rfl : bytes = field.image (source.shown reading.index).contents := lands.bytes_eq rfl
  rcases writeField_of_lands builtTarget amongTarget seated writes fits lands with
    ⟨after, done, edited⟩ | ⟨told, -⟩
  · rw [FieldWrite.first, Nat.zero_mul, Nat.add_zero] at edited
    refine ⟨after, ?_, edited⟩
    change (field.row field.kind).setImage writing _ pool = .ok () after at done
    simp only [transferField, found, image, bind_apply, adaptExcept_apply, ofExcept_ok_apply, done]
  · cases told

/-- Fields are written one after another, whatever their order is. -/
theorem transferFields_ok (built : ofDeclarations declarations = .ok source.layout)
    (seatedSource : source.Seated) (seated : pool.Seated)
    (sameLayout : pool.layout = source.layout) {reading writing : Proxy}
    (reads : source.Reaches reading) (writes : pool.Reaches writing) {fields : List Field}
    (among : ∀ field ∈ fields, field ∈ source.layout.fields) :
    ∃ after, fields.forM (transferField source reading writing) pool = .ok () after ∧
      Edited pool after writing.index ((pool.shown writing.index).contents.overlay
        (source.shown reading.index).contents (fields.map Field.span)) := by
  induction fields generalizing pool with
  | nil => exact ⟨pool, rfl, Edited.refl seated writing.index⟩
  | cons field rest ih =>
      obtain ⟨middle, first, edited⟩ := transferField_ok built seatedSource seated sameLayout
        reads writes (among field List.mem_cons_self)
      obtain ⟨after, later, editedLater⟩ := ih (edited.seated seated)
        (edited.layout_eq.trans sameLayout) (writes.edited edited)
        fun other later => among other (List.mem_cons_of_mem field later)
      rw [edited.shown_self] at editedLater
      refine ⟨after, ?_, edited.trans editedLater⟩
      rw [List.forM, bind_apply, first]
      exact later

/-- Two pools of one layout, the one with records and the other just opened and with memory at
hand, and proxies of both. -/
structure Exchanges (declarations : List Declaration) (source : Pool σ) (opened : Pool τ)
    (reader writer : Proxy) : Prop where
  built : ofDeclarations declarations = .ok source.layout
  layout_eq : opened.layout = source.layout
  sourceSeated : source.Seated
  seated : opened.Seated
  ample : Store.Ample opened.slab.store
  reads : reader.owner = source.id
  writes : writer.owner = opened.id

variable {reader writer : Proxy}

/-- The next record that is created becomes what the record of the other pool is, if no field is
left out. -/
theorem transferRecord_ok (exchanges : Exchanges declarations source opened reader writer)
    {id : Nat} (isLive : source.isLive id = true) (inside : id < source.capacity)
    {fields : List Field} (whole : ∀ field, field ∈ fields ↔ field ∈ source.layout.fields)
    (filled : Filled opened pool count) (room : count < Store.maxSize opened.slab.store) :
    ∃ after, transferRecord source reader writer fields id pool = .ok count after ∧
      Filled opened after (count + 1) ∧
      Elements.contents after.slab.store =
        Function.update (Elements.contents pool.slab.store) count (source.shown id).contents := by
  obtain ⟨middle, created, filledMiddle, kept⟩ :=
    filled.create_ok exchanges.ample room exchanges.writes
  have seated := filledMiddle.seated exchanges.seated
  have sameLayout := filledMiddle.layout_eq.trans exchanges.layout_eq
  have reads : source.Reaches (reader.pointAt id) := ⟨exchanges.reads, inside⟩
  have writes : middle.Reaches (writer.pointAt count) :=
    ⟨exchanges.writes.trans filledMiddle.id_eq.symm,
      filledMiddle.orderly.lt_capacity (Finset.self_mem_range_succ count)⟩
  obtain ⟨after, written, edited⟩ := transferFields_ok exchanges.built exchanges.sourceSeated
    seated sameLayout reads writes fun field among => (whole field).mp among
  have sourceSize := exchanges.sourceSeated.size_shown id
  have becomes : (middle.shown count).contents.overlay (source.shown id).contents
      (fields.map Field.span) = (source.shown id).contents := by
    apply Buffer.overlay_eq
    · rw [seated.size_shown, sourceSize, sameLayout]
    · intro span member
      obtain ⟨field, among, rfl⟩ := List.mem_map.mp member
      rw [sourceSize]
      exact stop_le_of_built exchanges.built ((whole field).mp among)
    · intro position within _
      rw [sourceSize] at within
      obtain ⟨field, among, covers⟩ := exists_field_of_built exchanges.built within
      exact ⟨field.span, List.mem_map_of_mem ((whole field).mpr among), covers⟩
  refine ⟨after, ?_, filledMiddle.edited edited, ?_⟩
  · simp only [transferRecord, bind_apply, created, Cursor.lookUp_of_live exchanges.reads isLive,
      written]
    rfl
  · rw [edited.contents_eq, kept]
    exact congrArg _ becomes

/-- The records of the first numbers are what the records of their ids are in the other pool. -/
def Carries (source : Pool σ) (pool : Pool τ) (count : Nat) : Prop :=
  ∀ number id, number < count → source.liveIds[number]? = some id →
    (pool.shown number).contents = (source.shown id).contents

/-- The records that are left are carried over, one after another. -/
theorem transferFrom_ok (exchanges : Exchanges declarations source opened reader writer)
    {live : Finset Nat} (orderly : source.slab.Orderly live) {order : Nat → List Field}
    (whole : ∀ number field, field ∈ order number ↔ field ∈ source.layout.fields)
    (room : source.liveIds.length ≤ Store.maxSize opened.slab.store) {number : Nat}
    (left : number + count = source.liveIds.length) (filled : Filled opened pool number)
    (carries : Carries source pool number) :
    ∃ after, transferFrom source (DenseIds.ofPool source) reader writer order number count pool =
        .ok (List.range' number count) after ∧
      Filled opened after (number + count) ∧ Carries source after (number + count) := by
  induction count generalizing number pool with
  | zero => exact ⟨pool, rfl, filled, carries⟩
  | succ count ih =>
      have within : number < source.liveIds.length := by omega
      have numbered : source.liveIds[number]? = some source.liveIds[number] :=
        List.getElem?_eq_getElem within
      generalize source.liveIds[number] = id at numbered
      have isLive := mem_liveIds_iff.mp (List.mem_of_getElem? numbered)
      have inside : id < source.capacity := orderly.lt_capacity ((isLive_iff orderly).mp isLive)
      obtain ⟨middle, created, filledMiddle, becomes⟩ := transferRecord_ok exchanges isLive inside
        (whole number) filled (Nat.lt_of_lt_of_le within room)
      have carriesMiddle : Carries source middle (number + 1) := by
        intro other otherId below otherNumbered
        rw [shown, becomes]
        by_cases same : other = number
        · subst same
          obtain rfl : id = otherId := Option.some.inj (numbered.symm.trans otherNumbered)
          exact Function.update_self _ _ _
        · have before : other < number := Nat.lt_of_le_of_ne (Nat.lt_succ_iff.mp below) same
          rw [Function.update_of_ne same]
          exact carries other otherId before otherNumbered
      obtain ⟨after, later, result⟩ := ih (by omega) filledMiddle carriesMiddle
      rw [Nat.add_right_comm number 1 count] at result
      refine ⟨after, ?_, result⟩
      simp only [transferFrom, DenseIds.id?_ofPool, numbered, bind_apply, created, later]
      rfl

theorem carriedOver_of_filled {live : Finset Nat} (orderly : source.slab.Orderly live)
    (sourceSeated : source.Seated) {after : Pool τ} (seated : after.Seated)
    (filled : Filled opened after source.liveCount)
    (carries : Carries source after source.liveCount) : CarriedOver source after where
  count_eq := DenseIds.count_eq_liveCount orderly
  liveCount_eq := by rw [liveCount_eq filled.orderly, Finset.card_range]
  liveIds_eq := filled.liveIds_eq
  record_eq number id numbered := by
    rw [DenseIds.id?_ofPool] at numbered
    have isLive := mem_liveIds_iff.mp (List.mem_of_getElem? numbered)
    have below : number < source.liveCount := by
      rw [← DenseIds.count_eq_liveCount orderly, DenseIds.count_ofPool]
      exact (List.getElem?_eq_some_iff.mp numbered).1
    have found := seated.record_eq (filled.orderly.lt_capacity (Finset.mem_range.mpr below))
    refine ⟨isLive, _,
      sourceSeated.record_eq (orderly.lt_capacity ((isLive_iff orderly).mp isLive)), ?_⟩
    rw [found, shown]
    exact congrArg (fun contents => Except.ok (Record.mk number contents))
      (carries number id below numbered)

/-- All live records of a pool are carried over into a pool just opened that has room for them. -/
theorem transfer_ok (exchanges : Exchanges declarations source opened reader writer)
    {live : Finset Nat} (orderly : source.slab.Orderly live) {order : Nat → List Field}
    (whole : ∀ number field, field ∈ order number ↔ field ∈ source.layout.fields)
    (room : source.liveCount ≤ Store.maxSize opened.slab.store)
    (fresh : Filled opened opened 0) :
    ∃ after, transfer source reader writer order opened =
        .ok (List.range source.liveCount) after ∧ CarriedOver source after := by
  have all : source.liveIds.length = source.liveCount := by
    rw [← DenseIds.count_ofPool, DenseIds.count_eq_liveCount orderly]
  have nothing : Carries source opened 0 := fun _ _ below => absurd below (Nat.not_lt_zero _)
  obtain ⟨after, done, filled, carries⟩ := transferFrom_ok exchanges orderly whole (all ▸ room)
    ((Nat.zero_add source.liveCount).trans all.symm) fresh nothing
  rw [Nat.zero_add] at filled carries
  refine ⟨after, ?_, carriedOver_of_filled orderly exchanges.sourceSeated
    (filled.seated exchanges.seated) filled carries⟩
  rw [transfer, DenseIds.count_eq_liveCount orderly, done, List.range_eq_range']

/-- At all times the live records of every pool are carried over into every pool of its layout
that was just opened and has room for them, whatever the order of the fields is. -/
theorem all_transfer_losslessly (declarations : List Declaration) (commands : List Command) :
    OfEveryKind fun _ _ _ origin => ofDeclarations declarations = .ok origin.layout →
      OfEveryKind fun _ _ _ target =>
        let source := (origin.run commands).2
        target.layout = source.layout → Store.Ample target.slab.store →
        source.liveCount ≤ Store.maxSize target.slab.store →
        ∀ (reader writer : Proxy) (order : Nat → List Field),
          reader.owner = source.id → writer.owner = target.id →
          (∀ number field, field ∈ order number ↔ field ∈ source.layout.fields) →
          ∃ after, transfer source reader writer order target =
              .ok (List.range source.liveCount) after ∧ CarriedOver source after := by
  apply ofEveryRunSeated
  intro σ _ _ origin _ seated orderly built
  rcases run_orderly orderly commands with ⟨live, orderlyAfter⟩
  apply ofEveryKind
  intro τ _ _ id layout store config sound fits source sameLayout ample room reader writer order
    reads writes whole
  have exchanges : Exchanges declarations source (blank id layout store config) reader writer := {
    built := by rwa [run_layout]
    layout_eq := sameLayout
    sourceSeated := seated.run orderly commands
    seated := seated_blank sound fits
    ample := ample
    reads := reads
    writes := writes }
  exact transfer_ok exchanges orderlyAfter whole room (Filled.blank sound id layout config)

/-- Particles with a hole between them, carried over into a chain that grows by one element at a
time, the last field of each first. -/
theorem particles_transfer_losslessly :
    ∃ layout origin target, Fixture.particle.layout = .ok layout ∧
      ofConfig ⟨0⟩ layout {} = .ok origin ∧ chained ⟨1⟩ layout 0 1 = .ok target ∧
      let commands : List Command := List.replicate 3 (.create (.unbound ⟨0⟩)) ++
        [.deleteId 1, .write (.rowImage (⟨24, 1⟩ : Row .f32) [0, 0, 128, 63]) ⟨⟨0⟩, 2⟩]
      let source := (origin.run commands).2
      source.liveIds = [0, 2] ∧
      ∃ after, transfer source (.unbound ⟨0⟩) (.unbound ⟨1⟩) (fun _ => layout.fields.reverse)
          target = .ok (List.range source.liveCount) after ∧ CarriedOver source after := by
  have opened : ∃ layout origin target, Fixture.particle.layout = .ok layout ∧
      ofConfig ⟨0⟩ layout {} = .ok origin ∧ chained ⟨1⟩ layout 0 1 = .ok target ∧
      origin.layout = layout ∧ target.layout = layout ∧ origin.id = ⟨0⟩ ∧ target.id = ⟨1⟩ ∧
      let commands : List Command := List.replicate 3 (.create (.unbound ⟨0⟩)) ++
        [.deleteId 1, .write (.rowImage (⟨24, 1⟩ : Row .f32) [0, 0, 128, 63]) ⟨⟨0⟩, 2⟩]
      let source := (origin.run commands).2
      source.liveIds = [0, 2] ∧ source.liveCount ≤ Store.maxSize target.slab.store :=
    ⟨_, _, _, rfl, rfl, rfl, rfl, rfl, rfl, rfl, by decide +kernel, by decide +kernel⟩
  rcases opened with ⟨layout, origin, target, built, openedOrigin, openedTarget, originLayout,
    targetLayout, originId, targetId, liveIds, room⟩
  have ample : Store.Ample target.slab.store := by
    rcases chained_ok openedTarget with ⟨store, -, ample, made⟩
    rcases ofStore_ok made with ⟨-, rfl⟩
    exact ample
  refine ⟨layout, origin, target, built, openedOrigin, openedTarget, liveIds, ?_⟩
  refine ((all_transfer_losslessly Fixture.particle.declarations _).1 _ _ _ _ _ openedOrigin
    (originLayout ▸ built)).2.1 _ _ _ _ _ _ openedTarget ?_ ample room _ _ _ ?_ targetId.symm ?_
  · rw [run_layout, targetLayout, originLayout]
  · rw [run_id, originId]
    rfl
  · intro _ field
    rw [run_layout, originLayout, List.mem_reverse]

end Pool

end RecordPool
