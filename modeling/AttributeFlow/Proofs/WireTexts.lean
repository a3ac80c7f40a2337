import AttributeFlow.Proofs.LawfulForms
import AttributeFlow.Proofs.SpelledValues

/-!
# Texts of values

A value is written as the compact text of its form and read as the form that a text
spells.  Where the form is lawful nothing is lost on the way, so texts tell values
apart.

A report is written with one item on each line.  The lines and their indentation are
nothing but blanks between the tokens of the compact text, so nothing is lost there either.
-/

namespace AttributeFlow

namespace JsonForm

variable {α : Type} [JsonForm α]

/-- The text of a value, without blanks. -/
def write (value : α) : String :=
  (toJson value).compress

/-- The value of a text; absent if the text spells no form of a value. -/
def read? (text : String) : Option α :=
  (Json.parse? text).bind ofJson?

theorem read?_write_eq (value : α) :
    (read? (write value) : Option α) = ofJson? (toJson value) := by
  rw [read?, write, Json.parse?_compress, Option.bind_some]

/-- Every value is read back from its text, so no two values have the same text. -/
structure LosslessTexts (α : Type) [JsonForm α] : Prop where
  read?_write : ∀ value : α, read? (write value) = some value
  write_injective : ∀ value other : α, write value = write other → value = other

theorem losslessTexts_of_lawful [LawfulForm α] : LosslessTexts α := by
  have readBack (value : α) : read? (write value) = some value :=
    (read?_write_eq value).trans (LawfulForm.ofJson?_toJson value)
  refine ⟨readBack, ?_⟩
  intro value other sameText
  have sameRead := readBack value
  rw [sameText, readBack other] at sameRead
  exact (Option.some.inj sameRead).symm

/-- The text of a value of any type but a dataset loses nothing. -/
theorem losslessTexts :
    LosslessTexts Attribute ∧ LosslessTexts Access ∧ LosslessTexts Usage
      ∧ LosslessTexts Operation ∧ LosslessTexts StageExpressions ∧ LosslessTexts Stage
      ∧ LosslessTexts Expression ∧ LosslessTexts ExpressionArena
      ∧ LosslessTexts AnalysisOptions ∧ LosslessTexts Placement ∧ LosslessTexts OwnerReport
      ∧ LosslessTexts SharedAttribute ∧ LosslessTexts DatasetReport := by
  refine ⟨?_, ?_, ?_, ?_, ?_, ?_, ?_, ?_, ?_, ?_, ?_, ?_, ?_⟩ <;> exact losslessTexts_of_lawful

/-- A value is read back from its text in any layout that adds nothing but blanks. -/
theorem read?_render [LawfulForm α] {layout : Json.Layout} (blank : layout.IsBlank) (value : α) :
    read? ((toJson value).render layout) = some value := by
  rw [read?, Json.parse?_render blank, Option.bind_some, LawfulForm.ofJson?_toJson]

end JsonForm

/-- A layout that adds nothing but blanks does not change the tokens of a text. -/
theorem Json.scan?_render {layout : Layout} (blank : layout.IsBlank) (value : Json) :
    Token.scan? (value.render layout).toList = some value.tokens := by
  rw [render, String.toList_ofList]
  exact (spells_write blank 0 value).scan?_eq

theorem DatasetReport.read?_write (report : DatasetReport) :
    JsonForm.read? report.write = some report :=
  JsonForm.read?_render Json.Layout.isBlank_indented report

example :
    let report : DatasetReport :=
      { dataset := ⟨3⟩, kind := .spawnEvent, analyzed := false
        owners := [⟨⟨7⟩, none, []⟩], shared := []
        stageLocals := [⟨"tab\t", .float2⟩] }
    report.write =
      "\x7b\n  \"data\": 3,\n  \"kind\": \"SpawnEvent\",\n  \"analyzed\": false,\n"
        ++ "  \"stages\": [\n    \x7b\n      \"stage\": 7,\n      \"kind\": null,\n"
        ++ "      \"attributes\": []\n    \x7d\n  ],\n  \"stored\": [],\n  \"local\": [\n"
        ++ "    \x7b\n      \"name\": \"tab\\t\",\n      \"ty\": \"Float2\"\n    \x7d\n  ]\n\x7d" := by
  decide +kernel

/-- The report of a dataset is read back from its text, and what is read has the same text
again.  The text has the tokens of the compact one, and reports that differ have different
texts. -/
theorem Dataset.report_restored (dataset : Dataset) (stages : StageId → Option Stage) :
    let report := dataset.report stages
    let restored : Option DatasetReport := JsonForm.read? report.write
    restored = some report
      ∧ restored.map DatasetReport.write = some report.write
      ∧ Token.scan? report.write.toList = Token.scan? (JsonForm.write report).toList
      ∧ ∀ (other : Dataset) (otherStages : StageId → Option Stage),
        (other.report otherStages).write = report.write ↔ other.report otherStages = report := by
  intro report restored
  have restoredEq : restored = some report := report.read?_write
  refine ⟨restoredEq, by rw [restoredEq, Option.map_some], ?_, ?_⟩
  · rw [DatasetReport.write, Json.pretty, Json.scan?_render Json.Layout.isBlank_indented,
      JsonForm.write, Json.compress, Json.scan?_render Json.Layout.isBlank_compact]
  · intro other otherStages
    constructor
    · intro sameText
      have sameRead := (other.report otherStages).read?_write
      rw [sameText, report.read?_write] at sameRead
      exact (Option.some.inj sameRead).symm
    · intro same
      rw [same]

end AttributeFlow
