import RecordPool.Proofs.Store.Elements
import RecordPool.Store.Cursor

/-!
# Operations on stores

What can be asked of a store and of the cursor over it, as data, and the run of a list of
such operations.  A run goes on after the operations that fail.

Whatever is asked, a store changes in three ways only: it grows, elements are written over, and
elements are exchanged.  What these three keep (`Store.Invariant`) holds at all times.  In
particular a store keeps its contract and loses no element.
-/

namespace RecordPool.Store

/-- What can be asked of a store with a cursor over it. -/
inductive Operation where
  | resize (count : Nat)
  | size
  | element (index : Nat)
  | read (index : Nat) (kind : Kind) (offset : Nat)
  | write (index : Nat) (kind : Kind) (offset : Nat) (value : kind.Carrier)
  | fill (index : Nat) (bytes : Bytes)
  | copy (source target : Nat)
  /-- Opens a cursor at the first element. -/
  | start
  | moveTo (index : Nat)
  | contents
  | get (kind : Kind) (offset : Nat)
  | put (kind : Kind) (offset : Nat) (value : kind.Carrier)
  | copyRange (source offset count : Nat)

/-- What is answered to an operation that does not fail. -/
inductive Reply where
  | done
  | count (count : Nat)
  | bytes (bytes : Bytes)
  | value (kind : Kind) (value : kind.Carrier)

/-- The answer to an operation. -/
abbrev Answer := Except (Failure Store.Error) Reply

/-- The answer that shows what was read. -/
def Answer.showing {α : Type} (reply : α → Reply) : Except Fault α → Answer
  | .ok value => .ok (reply value)
  | .error fault => .error (.fault fault)

namespace Cursor

variable {σ ε α : Type}

/-- Runs a computation on the store. -/
def onStore (action : EStateM ε σ α) : EStateM ε (Cursor σ) α :=
  focus (·.store) (fun store cursor => { cursor with store := store }) action

/-- The answer to a change, and the cursor after it. -/
def changed (fail : ε → Failure Store.Error) :
    EStateM.Result ε (Cursor σ) Unit → Answer × Cursor σ
  | .ok _ cursor => (.ok .done, cursor)
  | .error error cursor => (.error (fail error), cursor)

variable [Store σ]

/-- Carries out an operation whatever its outcome. -/
def step (cursor : Cursor σ) : Operation → Answer × Cursor σ
  | .resize count => changed id (onStore (Store.resize count) cursor)
  | .size => (.ok (.count (Elements.size cursor.store)), cursor)
  | .element index =>
      (.showing .bytes (Buffer.toBytes <$> Elements.element cursor.store index), cursor)
  | .read index kind offset =>
      (.showing (.value kind) (Elements.read cursor.store index kind offset), cursor)
  | .write index kind offset value =>
      changed .fault (onStore (Elements.write index kind offset value) cursor)
  | .fill index bytes => changed .fault (onStore (Elements.fill index bytes) cursor)
  | .copy source target => changed .fault (onStore (Elements.copy source target) cursor)
  | .start => (.ok .done, start cursor.store)
  | .moveTo index => (.ok .done, cursor.moveTo index)
  | .contents => (.showing .bytes (Buffer.toBytes <$> cursor.contents), cursor)
  | .get kind offset => (.showing (.value kind) (cursor.get kind offset), cursor)
  | .put kind offset value => changed .fault (put kind offset value cursor)
  | .copyRange source offset count => changed .fault (copyRange source offset count cursor)

/-- Carries out operations in order. -/
def run (cursor : Cursor σ) : List Operation → List Answer × Cursor σ
  | [] => ([], cursor)
  | operation :: rest =>
      let (answer, after) := cursor.step operation
      let (answers, final) := after.run rest
      (answer :: answers, final)

omit [Store σ] in
@[simp]
theorem snd_changed (fail : ε → Failure Store.Error)
    (outcome : EStateM.Result ε (Cursor σ) Unit) :
    (changed fail outcome).2 = stateLeft outcome := by
  cases outcome <;> rfl

omit [Store σ] in
@[simp]
theorem store_stateLeft_onStore (action : EStateM ε σ α) (cursor : Cursor σ) :
    (stateLeft (onStore action cursor)).store = stateLeft (action cursor.store) := by
  unfold onStore focus
  cases action cursor.store <;> rfl

theorem edit_apply (edit : Edit α) (cursor : Cursor σ) :
    Cursor.edit edit cursor = onStore (Elements.edit cursor.index edit) cursor := by
  unfold Cursor.edit onStore focus
  cases Elements.edit cursor.index edit cursor.store <;> rfl

end Cursor

/-- What can be asked of a store in use. -/
inductive Request where
  | operation (operation : Operation)
  | swap (left right : Nat)

section Use

variable {σ : Type} [Store σ]

/-- Carries out a request whatever its outcome. -/
def Cursor.serve (cursor : Cursor σ) : Request → Cursor σ
  | .operation operation => (cursor.step operation).2
  | .swap left right => stateLeft (Cursor.onStore (Store.swap left right) cursor)

/-- What requests leave of a store, whatever became of each of them. -/
def after (store : σ) (requests : List Request) : σ :=
  (requests.foldl Cursor.serve (Cursor.start store)).store

end Use

/-! ## What lasts -/

open LawfulStore

variable {σ α : Type} [Store σ] [LawfulStore σ]

/-- A property of sound stores that lasts through growth, writes over elements and
exchanges. -/
structure Invariant (Holds : σ → Prop) : Prop where
  sound : ∀ {store : σ}, Holds store → Sound store
  resize : ∀ {store : σ} (count : Nat), Holds store →
    Holds (stateLeft (Store.resize count store))
  overwrite : ∀ {store after : σ} {index : Nat} {contents : Buffer}, Holds store →
    index < Elements.size store → contents.size = Elements.elementSize store →
    Elements.overwrite index contents store = .ok () after → Holds after
  swap : ∀ {store : σ} (left right : Nat), Holds store →
    Holds (stateLeft (Store.swap left right store))

namespace Invariant

variable {Holds : σ → Prop} {store : σ}

/-- An edit writes over its element once, however it ends. -/
theorem edit (invariant : Invariant Holds) (holds : Holds store) (index : Nat)
    (edit : Edit α) : Holds (stateLeft (Elements.edit index edit store)) := by
  have sound := invariant.sound holds
  by_cases inside : index < Elements.size store
  · have fits := (edit.size_run (Elements.contents store index)).trans
      (size_contents sound index)
    obtain ⟨after, written, -⟩ := overwrite_inside sound inside fits
    have kept := invariant.overwrite holds inside fits written
    simp only [Elements.edit, bind_apply, get_apply, element_inside sound inside,
      ofExcept_ok_apply]
    cases outcome : edit.run (Elements.contents store index) with
    | ok value left =>
        rw [outcome] at written
        simp only [contentsLeft] at written
        simp only [bind_apply, written, pure_apply, stateLeft_ok]
        exact kept
    | error fault left =>
        rw [outcome] at written
        simp only [contentsLeft] at written
        simp only [bind_apply, written, throw_apply, stateLeft_error]
        exact kept
  · rw [edit_outside sound (Nat.le_of_not_lt inside)]
    exact holds

theorem copy (invariant : Invariant Holds) (holds : Holds store) (source target : Nat) :
    Holds (stateLeft (Elements.copy source target store)) := by
  have sound := invariant.sound holds
  by_cases same : source = target
  · rw [same, copy_self]
    exact holds
  · by_cases sourceInside : source < Elements.size store
    · by_cases targetInside : target < Elements.size store
      · have fits := size_contents sound source
        obtain ⟨after, written, -⟩ := overwrite_inside sound targetInside fits
        simp only [Elements.copy, if_neg same, bind_apply, get_apply,
          element_inside sound sourceInside, ofExcept_ok_apply, written]
        exact invariant.overwrite holds targetInside fits written
      · rw [copy_target_outside sound same sourceInside (Nat.le_of_not_lt targetInside)]
        exact holds
    · rw [copy_source_outside sound same (Nat.le_of_not_lt sourceInside)]
      exact holds

theorem step (invariant : Invariant Holds) {cursor : Cursor σ} (holds : Holds cursor.store)
    (operation : Operation) : Holds (cursor.step operation).2.store := by
  cases operation with
  | resize count =>
      simp only [Cursor.step, Cursor.snd_changed, Cursor.store_stateLeft_onStore]
      exact invariant.resize count holds
  | write index kind offset value =>
      simp only [Cursor.step, Cursor.snd_changed, Cursor.store_stateLeft_onStore]
      exact invariant.edit holds index _
  | fill index bytes =>
      simp only [Cursor.step, Cursor.snd_changed, Cursor.store_stateLeft_onStore]
      exact invariant.edit holds index _
  | copy source target =>
      simp only [Cursor.step, Cursor.snd_changed, Cursor.store_stateLeft_onStore]
      exact invariant.copy holds source target
  | put kind offset value =>
      simp only [Cursor.step, Cursor.snd_changed, Cursor.put, Cursor.edit_apply,
        Cursor.store_stateLeft_onStore]
      exact invariant.edit holds cursor.index _
  | copyRange source offset count =>
      simp only [Cursor.step, Cursor.snd_changed, Cursor.copyRange, bind_apply, get_apply,
        ite_action_apply]
      by_cases same : source = cursor.index
      · rw [if_pos same]
        exact holds
      · rw [if_neg same]
        cases Elements.element cursor.store source with
        | error fault => exact holds
        | ok contents =>
            simp only [ofExcept_ok_apply]
            cases contents.window offset count with
            | error fault => exact holds
            | ok run =>
                simp only [ofExcept_ok_apply, Cursor.edit_apply, Cursor.store_stateLeft_onStore]
                exact invariant.edit holds cursor.index _
  | _ => exact holds

theorem run (invariant : Invariant Holds) {cursor : Cursor σ} (holds : Holds cursor.store)
    (operations : List Operation) : Holds (cursor.run operations).2.store := by
  induction operations generalizing cursor with
  | nil => exact holds
  | cons operation rest ih => exact ih (invariant.step holds operation)

theorem serve (invariant : Invariant Holds) {cursor : Cursor σ} (holds : Holds cursor.store)
    (request : Request) : Holds (cursor.serve request).store := by
  cases request with
  | operation operation => exact invariant.step holds operation
  | swap left right =>
      simp only [Cursor.serve, Cursor.store_stateLeft_onStore]
      exact invariant.swap left right holds

/-- An invariant that holds of a store holds of what requests leave of it. -/
theorem after (invariant : Invariant Holds) (holds : Holds store) (requests : List Request) :
    Holds (Store.after store requests) := by
  have run : ∀ cursor : Cursor σ, Holds cursor.store →
      Holds (requests.foldl Cursor.serve cursor).store := by
    induction requests with
    | nil => exact fun _ holds => holds
    | cons request rest ih => exact fun cursor holds => ih _ (invariant.serve holds request)
  exact run (Cursor.start store) holds

end Invariant

/-- A store that another one became, of whatever size and contents. -/
def Descends (before after : σ) : Prop :=
  ∃ size contents, Elements.size before ≤ size ∧
    Store.Becomes Sound Affords before after size contents

theorem Descends.sound {before after : σ} : Descends before after → Sound after
  | ⟨_, _, _, becomes⟩ => becomes.sound

theorem Descends.becomes {before middle after : σ} {size : Nat} {contents : Nat → Buffer}
    (descends : Descends before middle) (larger : Elements.size middle ≤ size)
    (becomes : Store.Becomes Sound Affords middle after size contents) :
    Descends before after := by
  obtain ⟨middleSize, _, least, first⟩ := descends
  rw [first.size_eq] at larger
  exact ⟨size, contents, Nat.le_trans least larger, first.trans becomes⟩

/-- A store keeps its contract and its bounds and loses no element. -/
theorem invariant_descends (store : σ) : Invariant (Descends store) where
  sound := Descends.sound
  resize := fun count descends => by
    obtain ⟨_, larger, becomes⟩ := resize_becomes descends.sound count
    exact descends.becomes larger becomes
  overwrite := fun descends inside fits written => by
    obtain ⟨other, done, becomes⟩ := overwrite_inside descends.sound inside fits
    rw [written] at done
    cases done
    exact descends.becomes (Nat.le_refl _) becomes
  swap := fun left right descends => by
    obtain ⟨_, becomes⟩ := swap_becomes descends.sound left right
    exact descends.becomes (Nat.le_refl _) becomes

theorem Descends.refl {store : σ} (sound : Sound store) : Descends store store :=
  ⟨_, _, Nat.le_refl _, becomes_self sound⟩

/-- Whatever is asked, the store keeps its contract and its bounds and loses no element. -/
theorem Cursor.step_becomes {cursor : Cursor σ} (sound : Sound cursor.store)
    (operation : Operation) :
    ∃ size contents, Elements.size cursor.store ≤ size ∧
      Store.Becomes Sound Affords cursor.store (cursor.step operation).2.store size
        contents :=
  (invariant_descends cursor.store).step (Descends.refl sound) operation

theorem Cursor.run_becomes {cursor : Cursor σ} (sound : Sound cursor.store)
    (operations : List Operation) :
    ∃ size contents, Elements.size cursor.store ≤ size ∧
      Store.Becomes Sound Affords cursor.store (cursor.run operations).2.store size
        contents :=
  (invariant_descends cursor.store).run (Descends.refl sound) operations

theorem after_descends {store : σ} (sound : Sound store) (requests : List Request) :
    Descends store (after store requests) :=
  (invariant_descends store).after (Descends.refl sound) requests

theorem after_sound {store : σ} (sound : Sound store) (requests : List Request) :
    Sound (after store requests) :=
  (after_descends sound requests).sound

end RecordPool.Store
