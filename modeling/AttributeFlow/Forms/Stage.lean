import AttributeFlow.Forms.Usage
import AttributeFlow.Stage

/-!
# JSON forms of stages

Identifiers and masks are bare numbers.  A stage is read as it was written:
whether its operations fit its kind is not checked.
-/

namespace AttributeFlow

open JsonForm

instance : JsonForm StageId where
  toJson stage := toJson stage.index
  ofJson? value := (ofJson? value).map StageId.mk

instance : JsonForm ExpressionId where
  toJson expr := toJson expr.index
  ofJson? value := (ofJson? value).map ExpressionId.mk

instance : JsonForm DatasetId where
  toJson dataset := toJson dataset.index
  ofJson? value := (ofJson? value).map DatasetId.mk

instance : JsonForm StageKind :=
  .ofNames StageKind.all StageKind.name

instance : JsonForm KindMask where
  toJson mask := toJson mask.bits
  ofJson? value := (ofJson? value).map KindMask.mk

instance : JsonForm DatasetKind :=
  .ofNames [.particle, .spawnEvent] DatasetKind.name

/-- The name of a feed in files. -/
def Feed.fileName (feed : Feed) : String :=
  feed.kind?.elim "None" DatasetKind.name

instance : JsonForm Feed :=
  .ofNames [⟨none⟩, ⟨some .particle⟩, ⟨some .spawnEvent⟩] Feed.fileName

def Space.fileName : Space → String
  | .localSpace => "Local"
  | .worldSpace => "World"

instance : JsonForm Space :=
  .ofNames [.localSpace, .worldSpace] Space.fileName

def Device.fileName : Device → String
  | .cpu => "Cpu"
  | .gpu => "Gpu"

instance : JsonForm Device :=
  .ofNames [.cpu, .gpu] Device.fileName

instance : JsonForm Operation where
  toJson operation :=
    .record
      [("name", toJson operation.name), ("compatible", toJson operation.compatible),
        ("enabled", toJson operation.enabled), ("usages", toJson operation.usages)]
  ofJson? value := do
    let [name, compatible, enabled, usages] ←
      value.fields? ["name", "compatible", "enabled", "usages"] | none
    return {
      name := ← field? name
      compatible := ← field? compatible
      enabled := ← field? enabled
      usages := ← field? usages }

instance : JsonForm StageExpressions where
  toJson expressions :=
    .record [("cpu", toJson expressions.cpu), ("gpu", toJson expressions.gpu)]
  ofJson? value := do
    let [cpu, gpu] ← value.fields? ["cpu", "gpu"] | none
    return { cpu := ← field? cpu, gpu := ← field? gpu }

instance : JsonForm Stage where
  toJson stage :=
    .record
      [("kind", toJson stage.kind), ("input", toJson stage.input),
        ("output", toJson stage.output), ("space", toJson stage.space),
        ("usages", toJson stage.usages), ("optional_usages", toJson stage.optional),
        ("mapper", toJson stage.expressions), ("operations", toJson stage.operations),
        ("implicit_operations", toJson stage.implicit)]
  ofJson? value := do
    let [kind, input, output, space, usages, optional, expressions, operations, implicit] ←
      value.fields?
        ["kind", "input", "output", "space", "usages", "optional_usages", "mapper",
          "operations", "implicit_operations"] | none
    return {
      kind := ← field? kind
      input := ← field? input
      output := ← field? output
      space := ← field? space
      usages := ← field? usages
      optional := ← field? optional
      expressions := ← field? expressions
      operations := ← field? operations
      implicit := ← field? implicit }

end AttributeFlow
