import AttributeFlow.Dataset.Report
import AttributeFlow.Forms.Dataset
import AttributeFlow.Json.Writer

/-!
# JSON forms of reports

A report is written for people with one item on each line.
-/

namespace AttributeFlow

open JsonForm

instance : JsonForm OwnerReport where
  toJson report :=
    .record
      [("stage", toJson report.stage), ("kind", toJson report.kind?),
        ("attributes", toJson report.accesses)]
  ofJson? value := do
    let [stage, kind, accesses] ← value.fields? ["stage", "kind", "attributes"] | none
    return {
      stage := ← field? stage
      kind? := ← fieldOr? none kind
      accesses := ← field? accesses }

instance : JsonForm SharedAttribute where
  toJson entry := .record [("attribute", toJson entry.attr), ("key", toJson entry.key)]
  ofJson? value := do
    let [attr, key] ← value.fields? ["attribute", "key"] | none
    return { attr := ← field? attr, key := ← field? key }

instance : JsonForm DatasetReport where
  toJson report :=
    .record
      [("data", toJson report.dataset), ("kind", toJson report.kind),
        ("analyzed", toJson report.analyzed), ("stages", toJson report.owners),
        ("stored", toJson report.shared), ("local", toJson report.stageLocals)]
  ofJson? value := do
    let [dataset, kind, analyzed, owners, shared, stageLocals] ←
      value.fields? ["data", "kind", "analyzed", "stages", "stored", "local"] | none
    return {
      dataset := ← field? dataset
      kind := ← field? kind
      analyzed := ← field? analyzed
      owners := ← field? owners
      shared := ← field? shared
      stageLocals := ← field? stageLocals }

/-- The text of a report. -/
def DatasetReport.write (report : DatasetReport) : String :=
  (toJson report).pretty

end AttributeFlow
