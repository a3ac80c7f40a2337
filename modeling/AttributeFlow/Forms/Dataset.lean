import AttributeFlow.Dataset.Analysis
import AttributeFlow.Forms.Stage

/-!
# JSON forms of datasets

Only what identifies a dataset is written: its name, its kind and its owners.
The table and the plan are derived and come back with the next analysis, so a
dataset that was read has none and is not analyzed.  Its owners are taken as
they are written.

Every analysis option has a default, which an absent field takes.
-/

namespace AttributeFlow

open JsonForm

instance : JsonForm Dataset where
  toJson dataset :=
    .record
      [("id", toJson dataset.id), ("kind", toJson dataset.kind),
        ("owners", toJson dataset.owners)]
  ofJson? value := do
    let [id, kind, owners] ← value.fields? ["id", "kind", "owners"] | none
    return { id := ← field? id, kind := ← field? kind, owners := ← field? owners }

instance : JsonForm AnalysisOptions where
  toJson options :=
    .record
      [("log_report", toJson options.logReport), ("max_passes", toJson options.maxPasses)]
  ofJson? value := do
    let [logReport, maxPasses] ←
      value.fieldsWithDefaults? ["log_report", "max_passes"] | none
    return {
      logReport := ← fieldOr? false logReport
      maxPasses := ← fieldOr? none maxPasses }

instance : JsonForm Placement where
  toJson
    | .stageLocal => .text "Local"
    | .shared key => .record [("Stored", .record [("key", toJson key)])]
  ofJson? value := do
    match ← value.variant? with
    | ("Local", .null) => return .stageLocal
    | ("Stored", content) =>
        let [key] ← content.fields? ["key"] | none
        return .shared (← field? key)
    | _ => none

end AttributeFlow
