import AttributeFlow.Fault
import AttributeFlow.Operation

/-!
# Stages

A stage is one phase of processing over a dataset.  It declares usages of its
own, usages it can profit from but does not require, the expressions it
evaluates on each device, and two lists of operations: explicit ones, which may
be disabled, and implicit ones, which are always active and come after them.

Every operation that is added to a stage must fit the kind of the stage.
-/

namespace AttributeFlow

/-- The kind that a mask names, which must be exactly one known kind. -/
def KindMask.kind (mask : KindMask) : Except Fault StageKind :=
  match mask.single? with
  | some kind => .ok kind
  | none => .error (.stageKindMask mask)

/-- The space that positions are given in. -/
inductive Space where
  | localSpace
  | worldSpace
  deriving DecidableEq

structure StageExpressions where
  cpu : List ExpressionId := []
  gpu : List ExpressionId := []
  deriving DecidableEq

namespace StageExpressions

def on (expressions : StageExpressions) : Device → List ExpressionId
  | .cpu => expressions.cpu
  | .gpu => expressions.gpu

def push (expressions : StageExpressions) (device : Device) (expr : ExpressionId) :
    StageExpressions :=
  match device with
  | .cpu => { expressions with cpu := expressions.cpu ++ [expr] }
  | .gpu => { expressions with gpu := expressions.gpu ++ [expr] }

theorem on_push (expressions : StageExpressions) (device other : Device)
    (expr : ExpressionId) :
    (expressions.push device expr).on other =
      expressions.on other ++ if other = device then [expr] else [] := by
  cases device <;> cases other <;> simp [push, on]

end StageExpressions

/-- One phase of processing over a dataset. -/
structure Stage where
  kind : StageKind
  input : Feed := {}
  output : Feed := {}
  space : Space := .localSpace
  usages : List Usage := []
  /-- The usages the stage can profit from but does not require. -/
  optional : List Usage := []
  expressions : StageExpressions := {}
  operations : List Operation := []
  /-- Operations that are active whether or not they are enabled. -/
  implicit : List Operation := []
  deriving DecidableEq

namespace Stage

def ofKind (kind : StageKind) : Stage :=
  { kind }

def create (mask : KindMask) (input output : Feed) : Except Fault Stage := do
  let kind ← mask.kind
  return { kind, input, output }

def declare (stage : Stage) (usage : Usage) : Stage :=
  { stage with usages := stage.usages ++ [usage] }

def declareOptional (stage : Stage) (usage : Usage) : Stage :=
  { stage with optional := stage.optional ++ [usage] }

def evaluate (stage : Stage) (device : Device) (expr : ExpressionId) : Stage :=
  { stage with expressions := stage.expressions.push device expr }

/-- Drop the usages and the optional usages of the stage itself. -/
def withoutUsages (stage : Stage) : Stage :=
  { stage with usages := [], optional := [] }

/-- Refuse an operation that does not fit the kind of the stage. -/
def permit (stage : Stage) (operation : Operation) : Except Fault Unit :=
  if operation.fits stage.kind then .ok ()
  else .error (.incompatibleOperation operation.name stage.kind)

def append (stage : Stage) (operation : Operation) : Except Fault Stage := do
  stage.permit operation
  return { stage with operations := stage.operations ++ [operation] }

def appendImplicit (stage : Stage) (operation : Operation) : Except Fault Stage := do
  stage.permit operation
  return { stage with implicit := stage.implicit ++ [operation] }

/-- Insert an explicit operation at an index; an index beyond the end means the
end. -/
def insertAt (stage : Stage) (index : Nat) (operation : Operation) :
    Except Fault Stage := do
  stage.permit operation
  let place := min index stage.operations.length
  return { stage with operations := stage.operations.insertIdx place operation }

/-- Take out the explicit operation at an index, if there is one. -/
def takeAt (stage : Stage) (index : Nat) : Stage × Option Operation :=
  ({ stage with operations := stage.operations.eraseIdx index }, stage.operations[index]?)

/-- Change the explicit operation at an index, if there is one. -/
def changeAt (stage : Stage) (index : Nat) (change : Operation → Operation) : Stage :=
  { stage with operations := stage.operations.modify index change }

/-- The operations that take part in the work of the stage: the enabled explicit
ones, then the implicit ones. -/
def active (stage : Stage) : List Operation :=
  stage.operations.filter Operation.enabled ++ stage.implicit

/-- The usages of the stage and of its active operations.  Optional usages are
not among them. -/
def declared (stage : Stage) : List Usage :=
  stage.usages ++ stage.active.flatMap Operation.usages

def unconditional (stage : Stage) : List Access :=
  (stage.declared.filter Usage.isUnconditional).map Usage.access

end Stage

end AttributeFlow
