import AttributeFlow.Reply
import AttributeFlow.Stage
import Mathlib.Data.List.InsertIdx

/-!
# Edits of the operations of a stage

The operations of a stage are appended, inserted, taken out and changed in place, and
every operation that is added has to fit the kind of the stage.  Whatever is done to a
stage, its operations fit its kind, and the explicit ones are those that the same edits
make of a plain list: an operation is inserted between those before its place and those
from there on, and one that is taken out leaves those before it and those after it.
-/

namespace AttributeFlow

/-- A change of an operation in place, which says anew whether it is enabled and what it
declares. -/
structure Operation.Change where
  apply : Operation → Operation
  name_eq : ∀ operation, (apply operation).name = operation.name
  compatible_eq : ∀ operation, (apply operation).compatible = operation.compatible

theorem Operation.Change.fits_apply (change : Operation.Change) (operation : Operation)
    (kind : StageKind) : (change.apply operation).fits kind = operation.fits kind := by
  rw [Operation.fits, change.compatible_eq, Operation.fits]

/-- An item stands between those before its place and those from there on. -/
theorem insertIdx_eq_take_append_drop {Item : Type} {items : List Item} {place : Nat}
    (placeLe : place ≤ items.length) (item : Item) :
    items.insertIdx place item = items.take place ++ item :: items.drop place := by
  induction items generalizing place with
  | nil =>
      obtain rfl := Nat.le_zero.mp placeLe
      rfl
  | cons first items ih =>
      cases place with
      | zero => rfl
      | succ place => exact congrArg (first :: ·) (ih (Nat.le_of_succ_le_succ placeLe))

namespace Stage

/-- Something that is done to the operations of a stage. -/
inductive Edit where
  | append (operation : Operation)
  | appendImplicit (operation : Operation)
  | insertAt (index : Nat) (operation : Operation)
  | takeAt (index : Nat)
  | changeAt (index : Nat) (change : Operation.Change)

namespace Edit

/-- The operation that an edit adds. -/
def added? : Edit → Option Operation
  | .append operation | .appendImplicit operation | .insertAt _ operation => some operation
  | .takeAt _ | .changeAt _ _ => none

/-- The operation that an edit adds, if there is one, fits a kind. -/
def Fits (edit : Edit) (kind : StageKind) : Prop :=
  ∀ operation, edit.added? = some operation → operation.fits kind = true

instance (edit : Edit) (kind : StageKind) : Decidable (edit.Fits kind) :=
  match added : edit.added? with
  | none => isTrue fun _ found => nomatch added.symm.trans found
  | some operation =>
      decidable_of_iff (operation.fits kind = true) <| by
        simp [Fits, added]

/-- What an edit that fits makes of the explicit operations. -/
def onOperations (operations : List Operation) : Edit → List Operation
  | .append operation => operations ++ [operation]
  | .appendImplicit _ => operations
  | .insertAt index operation =>
      let place := min index operations.length
      operations.take place ++ operation :: operations.drop place
  | .takeAt index => operations.take index ++ operations.drop (index + 1)
  | .changeAt index change =>
      match operations[index]? with
      | none => operations
      | some operation =>
          operations.take index ++ change.apply operation :: operations.drop (index + 1)

/-- What an edit that fits makes of the implicit operations. -/
def onImplicit (operations : List Operation) : Edit → List Operation
  | .appendImplicit operation => operations ++ [operation]
  | _ => operations

/-- The operation that an edit takes out or changes. -/
def concerned? (operations : List Operation) : Edit → Option Operation
  | .takeAt index | .changeAt index _ => operations[index]?
  | _ => none

end Edit

/-- Leave the stage as it is where something longer is refused, as `Effect.appendOperation`
does. -/
def orUnchanged (stage : Stage) :
    Except Fault Stage → Reply Stage (Except Fault (Option Operation))
  | .ok longer => { state := longer, answer := .ok none }
  | .error fault => { state := stage, answer := .error fault }

/-- Carry out an edit.  The answer is the operation that it took out or changed. -/
def attempt (stage : Stage) : Edit → Reply Stage (Except Fault (Option Operation))
  | .append operation => stage.orUnchanged (stage.append operation)
  | .appendImplicit operation => stage.orUnchanged (stage.appendImplicit operation)
  | .insertAt index operation => stage.orUnchanged (stage.insertAt index operation)
  | .takeAt index => { state := (stage.takeAt index).1, answer := .ok (stage.takeAt index).2 }
  | .changeAt index change =>
      { state := stage.changeAt index change.apply, answer := .ok stage.operations[index]? }

/-- The stage after some edits, whether or not they were refused. -/
def run (stage : Stage) (edits : List Edit) : Stage :=
  edits.foldl (fun current edit => (current.attempt edit).state) stage

/-- Every operation of the stage fits its kind. -/
def IsLegal (stage : Stage) : Prop :=
  ∀ operation ∈ stage.operations ++ stage.implicit, operation.fits stage.kind = true

/-- The stage with what an edit that fits makes of its operations. -/
def edited (stage : Stage) (edit : Edit) : Stage :=
  { stage with
    operations := edit.onOperations stage.operations
    implicit := edit.onImplicit stage.implicit }

/-- The explicit operations that the fitting ones among some edits make of none. -/
def referenceOperations (kind : StageKind) (edits : List Edit) : List Operation :=
  (edits.filter (·.Fits kind)).foldl Edit.onOperations []

/-- The implicit operations that the fitting ones among some edits make of none. -/
def referenceImplicit (kind : StageKind) (edits : List Edit) : List Operation :=
  (edits.filter (·.Fits kind)).foldl Edit.onImplicit []

/-- A stage as it is made, from a kind or from a mask. -/
def IsNew (stage : Stage) : Prop :=
  (∃ kind, ofKind kind = stage) ∨ ∃ mask input output, create mask input output = .ok stage

variable {stage made : Stage} {edit : Edit} {operation : Operation}

/-- Every edit that adds an operation asks first whether it fits. -/
theorem orUnchanged_permit (stage longer : Stage) (operation : Operation) :
    stage.orUnchanged (do stage.permit operation; return longer) =
      if operation.fits stage.kind then { state := longer, answer := .ok none }
      else
        { state := stage
          answer := .error (.incompatibleOperation operation.name stage.kind) } := by
  by_cases fits : operation.fits stage.kind = true
  · rw [permit, if_pos fits, if_pos fits]
    rfl
  · rw [permit, if_neg fits, if_neg fits]
    rfl

/-- Changing an operation in place leaves the others where they are. -/
theorem modify_eq_onOperations (operations : List Operation) (index : Nat)
    (change : Operation.Change) :
    operations.modify index change.apply =
      (Edit.changeAt index change).onOperations operations := by
  rw [Edit.onOperations]
  by_cases inside : index < operations.length
  · rw [List.getElem?_eq_getElem inside, List.modify_eq_take_cons_drop inside]
  · have outside := Nat.le_of_not_lt inside
    rw [List.getElem?_eq_none outside, List.modify_eq_self outside]

theorem attempt_of_fits (fits : edit.Fits stage.kind) :
    stage.attempt edit =
      { state := stage.edited edit, answer := .ok (edit.concerned? stage.operations) } := by
  cases edit with
  | append operation =>
      exact (stage.orUnchanged_permit _ operation).trans (if_pos (fits operation rfl))
  | appendImplicit operation =>
      exact (stage.orUnchanged_permit _ operation).trans (if_pos (fits operation rfl))
  | insertAt index operation =>
      have place := insertIdx_eq_take_append_drop
        (Nat.min_le_right index stage.operations.length) operation
      rw [edited, Edit.onOperations, ← place]
      exact (stage.orUnchanged_permit _ operation).trans (if_pos (fits operation rfl))
  | takeAt index =>
      rw [attempt, takeAt, List.eraseIdx_eq_take_drop_succ]
      rfl
  | changeAt index change =>
      rw [attempt, changeAt, modify_eq_onOperations]
      rfl

theorem attempt_of_not_fits (added : edit.added? = some operation)
    (misfit : operation.fits stage.kind = false) :
    stage.attempt edit =
      { state := stage
        answer := .error (.incompatibleOperation operation.name stage.kind) } := by
  have refused (longer : Stage) :=
    (stage.orUnchanged_permit longer operation).trans (if_neg (by simp [misfit]))
  cases edit with
  | append _ | appendImplicit _ | insertAt _ _ =>
      cases added
      exact refused _
  | takeAt _ | changeAt _ _ => nomatch added

/-- An edit that does not fit adds an operation that does not. -/
theorem exists_misfit {kind : StageKind} (unfit : ¬ edit.Fits kind) :
    ∃ operation, edit.added? = some operation ∧ operation.fits kind = false := by
  rw [Edit.Fits] at unfit
  push Not at unfit
  obtain ⟨operation, added, misfit⟩ := unfit
  exact ⟨operation, added, Bool.eq_false_iff.mpr misfit⟩

theorem attempt_state (stage : Stage) (edit : Edit) :
    (stage.attempt edit).state = if edit.Fits stage.kind then stage.edited edit else stage := by
  by_cases fits : edit.Fits stage.kind
  · rw [attempt_of_fits fits, if_pos fits]
  · obtain ⟨operation, added, misfit⟩ := exists_misfit fits
    rw [attempt_of_not_fits added misfit, if_neg fits]

theorem onOperations_fit {kind : StageKind} {operations : List Operation}
    (allFit : ∀ operation ∈ operations, operation.fits kind = true) (fits : edit.Fits kind) :
    ∀ operation ∈ edit.onOperations operations, operation.fits kind = true := by
  have beforeFit (place : Nat) : ∀ operation ∈ operations.take place, operation.fits kind = true :=
    fun operation member => allFit operation (List.mem_of_mem_take member)
  have behindFit (place : Nat) : ∀ operation ∈ operations.drop place, operation.fits kind = true :=
    fun operation member => allFit operation (List.mem_of_mem_drop member)
  cases edit with
  | append added =>
      exact List.forall_mem_append.mpr ⟨allFit, List.forall_mem_singleton.mpr (fits added rfl)⟩
  | appendImplicit _ => exact allFit
  | insertAt index added =>
      exact List.forall_mem_append.mpr
        ⟨beforeFit _, List.forall_mem_cons.mpr ⟨fits added rfl, behindFit _⟩⟩
  | takeAt index => exact List.forall_mem_append.mpr ⟨beforeFit _, behindFit _⟩
  | changeAt index change =>
      rw [Edit.onOperations]
      cases found : operations[index]? with
      | none => exact allFit
      | some changed =>
          have changedFits : (change.apply changed).fits kind = true := by
            rw [change.fits_apply]
            exact allFit changed (List.mem_of_getElem? found)
          exact List.forall_mem_append.mpr
            ⟨beforeFit _, List.forall_mem_cons.mpr ⟨changedFits, behindFit _⟩⟩

theorem onImplicit_fit {kind : StageKind} {operations : List Operation}
    (allFit : ∀ operation ∈ operations, operation.fits kind = true) (fits : edit.Fits kind) :
    ∀ operation ∈ edit.onImplicit operations, operation.fits kind = true := by
  cases edit with
  | appendImplicit added =>
      exact List.forall_mem_append.mpr ⟨allFit, List.forall_mem_singleton.mpr (fits added rfl)⟩
  | append _ | insertAt _ _ | takeAt _ | changeAt _ _ => exact allFit

theorem IsLegal.attempt (legal : stage.IsLegal) (edit : Edit) :
    (stage.attempt edit).state.IsLegal := by
  rw [attempt_state]
  split
  next fits =>
    obtain ⟨explicitFit, implicitFit⟩ := List.forall_mem_append.mp legal
    exact List.forall_mem_append.mpr
      ⟨onOperations_fit explicitFit fits, onImplicit_fit implicitFit fits⟩
  next => exact legal

theorem IsLegal.run (legal : stage.IsLegal) (edits : List Edit) : (stage.run edits).IsLegal := by
  induction edits generalizing stage with
  | nil => exact legal
  | cons edit edits ih => exact ih (legal.attempt edit)

/-- Edits change nothing but the operations, and those as the fitting edits change plain
lists. -/
theorem run_eq (stage : Stage) (edits : List Edit) :
    stage.run edits =
      { stage with
        operations := (edits.filter (·.Fits stage.kind)).foldl Edit.onOperations stage.operations
        implicit := (edits.filter (·.Fits stage.kind)).foldl Edit.onImplicit stage.implicit } := by
  induction edits generalizing stage with
  | nil => rfl
  | cons edit edits ih =>
      have rest : stage.run (edit :: edits) = (stage.attempt edit).state.run edits := rfl
      rw [rest, attempt_state]
      by_cases fits : edit.Fits stage.kind
      · rw [if_pos fits, List.filter_cons_of_pos (by simpa using fits)]
        exact ih (stage.edited edit)
      · rw [if_neg fits, List.filter_cons_of_neg (by simpa using fits)]
        exact ih stage

/-- A stage that is just made has no operations. -/
theorem IsNew.eq_nil (new : made.IsNew) : made.operations = [] ∧ made.implicit = [] := by
  obtain ⟨kind, rfl⟩ | ⟨mask, input, output, created⟩ := new
  · exact ⟨rfl, rfl⟩
  · rw [create] at created
    cases known : mask.kind with
    | error fault =>
        rw [known] at created
        cases created
    | ok kind =>
        rw [known] at created
        cases created
        exact ⟨rfl, rfl⟩

/-- Taking out an operation where it was inserted gives it back and restores the stage. -/
theorem takeAt_insertAt (index : Nat) (fits : operation.fits stage.kind = true) :
    ∃ longer, stage.insertAt index operation = .ok longer ∧
      longer.takeAt (min index stage.operations.length) = (stage, some operation) := by
  let place := min index stage.operations.length
  refine ⟨{ stage with operations := stage.operations.insertIdx place operation }, ?_, ?_⟩
  · rw [insertAt, permit, if_pos fits]
    rfl
  · rw [takeAt, List.eraseIdx_insertIdx_self, List.getElem?_insertIdx_self,
      if_pos (Nat.min_le_right _ _)]

/-- Whatever is done to the operations of a stage after it is made, nothing else about it
changes, all its operations fit its kind, and they are those that the fitting edits make of
empty lists.  An edit whose operation does not fit is refused and changes nothing, any other
one answers with the operation that stood at its index, and what was inserted can be taken
out again. -/
theorem run_follows_reference (new : made.IsNew) (edits : List Edit) :
    let after := made.run edits
    after =
        { made with
          operations := referenceOperations made.kind edits
          implicit := referenceImplicit made.kind edits } ∧
      after.IsLegal ∧
      (∀ edit operation, edit.added? = some operation → operation.fits made.kind = false →
        after.attempt edit =
          { state := after
            answer := .error (.incompatibleOperation operation.name made.kind) }) ∧
      (∀ edit, edit.Fits made.kind →
        after.attempt edit =
          { state := after.edited edit, answer := .ok (edit.concerned? after.operations) }) ∧
      ∀ index operation, operation.fits made.kind = true →
        ∃ longer, after.insertAt index operation = .ok longer ∧
          longer.takeAt (min index after.operations.length) = (after, some operation) := by
  intro after
  obtain ⟨noOperations, noImplicit⟩ := new.eq_nil
  have afterEq : after =
      { made with
        operations := referenceOperations made.kind edits
        implicit := referenceImplicit made.kind edits } := by
    have unrolled := run_eq made edits
    rw [noOperations, noImplicit] at unrolled
    exact unrolled
  have sameKind : after.kind = made.kind := by rw [afterEq]
  have madeLegal : made.IsLegal := by simp [IsLegal, noOperations, noImplicit]
  refine ⟨afterEq, madeLegal.run edits, ?_, ?_, ?_⟩
  · intro edit operation added misfit
    rw [← sameKind] at misfit ⊢
    exact attempt_of_not_fits added misfit
  · intro edit fits
    rw [← sameKind] at fits
    exact attempt_of_fits fits
  · intro index operation fits
    rw [← sameKind] at fits
    exact takeAt_insertAt index fits

/-- Two indexes are beyond the end, one operation is switched off and one refused, and what
is inserted at the end is taken out again. -/
theorem run_follows_reference_drag :
    let made : Stage := { kind := .update, output := ⟨some .particle⟩ }
    let disable : Operation.Change :=
      ⟨fun operation => { operation with enabled := false }, fun _ => rfl, fun _ => rfl⟩
    let drag : Operation := { name := "Drag", compatible := ⟨3⟩ }
    let draw : Operation := { name := "Draw", compatible := ⟨4⟩ }
    let edits : List Edit :=
      [.append ⟨"Move", ⟨2⟩, true, []⟩, .insertAt 0 ⟨"Age", ⟨7⟩, true, []⟩, .insertAt 99 drag,
        .insertAt 0 draw, .changeAt 1 disable, .takeAt 99, .takeAt 0,
        .appendImplicit ⟨"Seed", ⟨7⟩, true, []⟩]
    let after : Stage :=
      { made with
        operations := [⟨"Move", ⟨2⟩, false, []⟩, drag]
        implicit := [⟨"Seed", ⟨7⟩, true, []⟩] }
    create ⟨2⟩ {} ⟨some .particle⟩ = .ok made ∧
      (made.run edits).operations = referenceOperations .update edits ∧
      made.run edits = after ∧
      ((made.run edits).attempt (.append draw)).answer =
        .error (.incompatibleOperation "Draw" .update) ∧
      ∃ longer, (made.run edits).insertAt 5 drag = .ok longer ∧
        longer.takeAt (min 5 (made.run edits).operations.length) = (made.run edits, some drag) := by
  intro made disable drag draw edits after
  have created : create ⟨2⟩ {} ⟨some .particle⟩ = .ok made := by rfl
  obtain ⟨afterEq, -, refused, -, restored⟩ :=
    run_follows_reference (.inr ⟨_, _, _, created⟩) edits
  have listed : (made.run edits).operations = referenceOperations .update edits := by
    rw [afterEq]
  refine ⟨created, listed, by decide, ?_, restored 5 drag (by decide)⟩
  rw [refused (.append draw) draw rfl (by decide)]

end Stage

end AttributeFlow
