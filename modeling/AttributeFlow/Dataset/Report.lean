import AttributeFlow.Dataset

/-!
# The structured report

The structured report has the content of the text report in a form for tools:
every owner with the attributes it touches, also if there are none, and the
shared and local attributes of the plan.
-/

namespace AttributeFlow

structure OwnerReport where
  stage : StageId
  /-- The kind of the stage; absent if the stage does not exist. -/
  kind? : Option StageKind
  accesses : List Access
  deriving DecidableEq

structure SharedAttribute where
  attr : Attribute
  key : OwnerKey
  deriving DecidableEq

structure DatasetReport where
  dataset : DatasetId
  kind : DatasetKind
  analyzed : Bool
  owners : List OwnerReport
  shared : List SharedAttribute
  stageLocals : List Attribute
  deriving DecidableEq

def Dataset.report (dataset : Dataset) (stages : StageId → Option Stage) : DatasetReport :=
  { dataset := dataset.id
    kind := dataset.kind
    analyzed := dataset.analyzed
    owners := dataset.owners.map fun owner =>
      { stage := owner
        kind? := (stages owner).map Stage.kind
        accesses := dataset.table.ofStage owner }
    shared := dataset.plan.shared.map fun (attr, key) => { attr, key }
    stageLocals := dataset.plan.stageLocals }

end AttributeFlow
