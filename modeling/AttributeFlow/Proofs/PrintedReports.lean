import AttributeFlow.Dataset.Report
import AttributeFlow.Dataset.TextReport
import Mathlib.Data.List.Basic

/-!
# The text report is a print of the structured report

The text report is written from the dataset and the structured report is made from the
dataset, each by itself.  Here the structured report is printed, and the print turns out to
be the text report, so the text knows nothing of the dataset that the structured report
does not say.  Of the structured report the lines leave out two things only: whether the
dataset counts as analyzed, and the owners that touch nothing.
-/

namespace AttributeFlow

/-- What a line of a printed report says. -/
inductive ReportLine where
  | header (dataset : DatasetId) (kind : DatasetKind)
  | owner (stage : StageId) (kind? : Option StageKind)
  | touched (access : Access)
  | sharedTitle
  | shared (entry : SharedAttribute)
  | stageLocalTitle
  | stageLocal (attr : Attribute)
  deriving DecidableEq

namespace ReportLine

/-- The text of a line, with its end. -/
def text : ReportLine → String
  | .header dataset kind =>
      "Attributes for data " ++ dataset.display ++ " (" ++ kind.name ++ ")\n"
  | .owner stage kind? =>
      "\tStage " ++ stage.display ++ " " ++ kind?.elim "<missing>" StageKind.name ++ "\n"
  | .touched access =>
      "\t\t" ++ access.attr.name ++ " " ++ access.attr.valueType.name ++ " "
        ++ access.mode.display ++ "\n"
  | .sharedTitle => "--- stored attributes ---\n"
  | .shared entry =>
      "\t\t" ++ entry.attr.name ++ " " ++ entry.attr.valueType.name ++ " "
        ++ Numeral.hexadecimal 8 entry.key.toNat ++ "\n"
  | .stageLocalTitle => "--- local attributes ---\n"
  | .stageLocal attr => "\t\t" ++ attr.name ++ " " ++ attr.valueType.name ++ "\n"

/-- A title with the lines below it; nothing if there are none. -/
def titled (title : ReportLine) : List ReportLine → List ReportLine
  | [] => []
  | line :: lines => title :: line :: lines

end ReportLine

/-- The lines of an owner. -/
def OwnerReport.lines (report : OwnerReport) : List ReportLine :=
  ReportLine.titled (.owner report.stage report.kind?) (report.accesses.map .touched)

namespace DatasetReport

/-- The lines of a report. -/
def lines (report : DatasetReport) : List ReportLine :=
  .header report.dataset report.kind
    :: report.owners.flatMap OwnerReport.lines
    ++ ReportLine.titled .sharedTitle (report.shared.map .shared)
    ++ ReportLine.titled .stageLocalTitle (report.stageLocals.map .stageLocal)

/-- The print of a report. -/
def print (report : DatasetReport) : String :=
  String.join (report.lines.map ReportLine.text)

/-- What a print shows of a report: the owners that touch something, and not whether the
dataset counts as analyzed. -/
def shown (report : DatasetReport) : DatasetReport :=
  { report with
    analyzed := false
    owners := report.owners.filter fun owner => !owner.accesses.isEmpty }

end DatasetReport

namespace ReportLine

open Dataset

theorem reportLine_two (indent : Nat) (first second : String) :
    reportLine indent [first, second] =
      String.ofList (List.replicate indent '\t') ++ first ++ " " ++ second ++ "\n" := by
  simp only [reportLine, String.intercalate_cons_cons, String.intercalate_singleton,
    String.append_assoc]

theorem reportLine_three (indent : Nat) (first second third : String) :
    reportLine indent [first, second, third] =
      String.ofList (List.replicate indent '\t') ++ first ++ " " ++ second ++ " " ++ third
        ++ "\n" := by
  simp only [reportLine, String.intercalate_cons_cons, String.intercalate_singleton,
    String.append_assoc]

theorem text_header (dataset : DatasetId) (kind : DatasetKind) :
    (header dataset kind).text =
      reportLine 0 ["Attributes for data", dataset.display, "(" ++ kind.name ++ ")"] := by
  rw [reportLine_three, ← String.toList_inj]
  unfold text
  simp only [String.toList_append, String.toList_ofList]
  simp

theorem text_owner (stage : StageId) (kind? : Option StageKind) :
    (owner stage kind?).text =
      reportLine 1 ["Stage", stage.display, kind?.elim "<missing>" StageKind.name] := by
  rw [reportLine_three]
  rfl

theorem text_touched (access : Access) :
    (touched access).text =
      reportLine 2 [access.attr.name, access.attr.valueType.name, access.mode.display] := by
  rw [reportLine_three]
  rfl

theorem text_shared (entry : SharedAttribute) :
    (shared entry).text =
      reportLine 2 [entry.attr.name, entry.attr.valueType.name,
        Numeral.hexadecimal 8 entry.key.toNat] := by
  rw [reportLine_three]
  rfl

theorem text_stageLocal (attr : Attribute) :
    (stageLocal attr).text = reportLine 2 [attr.name, attr.valueType.name] := by
  rw [reportLine_two]
  rfl

theorem text_sharedTitle : text sharedTitle = reportLine 0 ["---", "stored attributes", "---"] := by
  rfl

theorem text_stageLocalTitle :
    text stageLocalTitle = reportLine 0 ["---", "local attributes", "---"] := by
  rfl

theorem map_text_titled (title : ReportLine) (lines : List ReportLine) :
    (titled title lines).map text =
      if lines.isEmpty then [] else title.text :: lines.map text := by
  cases lines <;> rfl

end ReportLine

namespace Dataset

open ReportLine

/-- The text report has for an owner the lines that are printed for its report. -/
theorem reportOwner_eq (dataset : Dataset) (stages : StageId → Option Stage) (owner : StageId) :
    dataset.reportOwner stages owner =
      (OwnerReport.lines
        { stage := owner
          kind? := (stages owner).map Stage.kind
          accesses := dataset.table.ofStage owner }).map text := by
  have kindEq : ((stages owner).elim "<missing>" fun stage => stage.kind.name) =
      ((stages owner).map Stage.kind).elim "<missing>" StageKind.name := by
    cases stages owner <;> rfl
  have touchedEq : (text ∘ touched) = fun access =>
      reportLine 2 [access.attr.name, access.attr.valueType.name, access.mode.display] :=
    funext text_touched
  rw [reportOwner, OwnerReport.lines, map_text_titled, text_owner, List.map_map, touchedEq, kindEq,
    List.isEmpty_map]

theorem reportSection_eq {Entry : Type} (entries : List Entry) {title : ReportLine}
    {words : String} (titleEq : title.text = reportLine 0 ["---", words, "---"])
    {line : Entry → ReportLine} {printed : Entry → String}
    (lineEq : ∀ entry, (line entry).text = printed entry) :
    reportSection words (entries.map printed) = (titled title (entries.map line)).map text := by
  have entriesEq : (text ∘ line) = printed := funext lineEq
  rw [reportSection, map_text_titled, titleEq, List.map_map, entriesEq, List.isEmpty_map,
    List.isEmpty_map]

/-- The text report of a dataset is the print of its structured report. -/
theorem textReport_eq_print (dataset : Dataset) (stages : StageId → Option Stage) :
    dataset.textReport stages = (dataset.report stages).print := by
  have ownersEq : dataset.owners.flatMap (dataset.reportOwner stages) =
      ((dataset.report stages).owners.flatMap OwnerReport.lines).map text := by
    rw [report, List.flatMap_map, List.map_flatMap]
    apply List.flatMap_congr
    intro owner _
    exact dataset.reportOwner_eq stages owner
  have sharedEq := reportSection_eq (dataset.report stages).shared text_sharedTitle text_shared
  have localEq := reportSection_eq (dataset.report stages).stageLocals text_stageLocalTitle
    text_stageLocal
  rw [textReport, DatasetReport.print, DatasetReport.lines, ownersEq]
  rw [List.map_append, List.map_append, ← localEq, ← sharedEq, List.map_cons, text_header]
  rw [report, List.map_map]
  rfl

example :
    let report : DatasetReport :=
      { dataset := ⟨0⟩, kind := .particle, analyzed := true
        owners :=
          [⟨⟨1⟩, some .init, [⟨.velocity, .writeCurrent⟩]⟩, ⟨⟨4⟩, some .update, []⟩,
            ⟨⟨5⟩, none, [⟨.velocity, .readCurrent⟩, ⟨.color, .readCurrent⟩]⟩]
        shared := [⟨.velocity, 0x1C⟩], stageLocals := [] }
    report.print =
      "Attributes for data 0 (Particle)\n"
        ++ "\tStage 1 Initialize\n\t\tvelocity float3 WriteCurrent\n"
        ++ "\tStage 5 <missing>\n\t\tvelocity float3 ReadCurrent\n\t\tcolor float3 ReadCurrent\n"
        ++ "--- stored attributes ---\n\t\tvelocity float3 0x0000001c\n" := by
  decide +kernel

end Dataset

namespace ReportLine

/-- The shared attribute that a line shows. -/
def shared? : ReportLine → Option SharedAttribute
  | .shared entry => some entry
  | _ => none

/-- The local attribute that a line shows. -/
def stageLocal? : ReportLine → Option Attribute
  | .stageLocal attr => some attr
  | _ => none

/-- The owners that some lines show, and the accesses that stand before the first of them. -/
def owners : List ReportLine → List Access × List OwnerReport
  | [] => ([], [])
  | .touched access :: lines => ((access :: (owners lines).1), (owners lines).2)
  | .owner stage kind? :: lines => ([], ⟨stage, kind?, (owners lines).1⟩ :: (owners lines).2)
  | _ :: lines => owners lines

theorem mem_titled_iff {line title : ReportLine} {lines : List ReportLine} :
    line ∈ titled title lines ↔ lines ≠ [] ∧ (line = title ∨ line ∈ lines) := by
  cases lines with
  | nil => simp [titled]
  | cons first lines => simp [titled]

/-- A view that leaves out the title sees the lines below it. -/
theorem filterMap_titled {View : Type} {view : ReportLine → Option View} {title : ReportLine}
    (leftOut : view title = none) (lines : List ReportLine) :
    (titled title lines).filterMap view = lines.filterMap view := by
  cases lines with
  | nil => rfl
  | cons line lines => exact List.filterMap_cons_none leftOut

theorem owners_touched (accesses : List Access) (lines : List ReportLine) :
    owners (accesses.map .touched ++ lines) =
      (accesses ++ (owners lines).1, (owners lines).2) := by
  induction accesses with
  | nil => rfl
  | cons access accesses ih =>
      rw [List.map_cons, List.cons_append, owners, ih]
      rfl

/-- Sections show no owners. -/
theorem owners_titled {Entry : Type} {title : ReportLine} {line : Entry → ReportLine}
    (titleLeftOut : ∀ rest, owners (title :: rest) = owners rest)
    (leftOut : ∀ entry rest, owners (line entry :: rest) = owners rest) (entries : List Entry)
    (rest : List ReportLine) :
    owners (titled title (entries.map line) ++ rest) = owners rest := by
  have entriesLeftOut : owners (entries.map line ++ rest) = owners rest := by
    induction entries with
    | nil => rfl
    | cons entry entries ih => exact (leftOut entry _).trans ih
  cases entries with
  | nil => rfl
  | cons entry entries => exact (titleLeftOut _).trans entriesLeftOut

/-- An owner that touches something is shown with all that it touches. -/
theorem owners_lines (report : OwnerReport) {rest : List ReportLine}
    (noneBefore : (owners rest).1 = []) :
    owners (report.lines ++ rest) =
      ([], (if report.accesses.isEmpty then [] else [report]) ++ (owners rest).2) := by
  obtain ⟨stage, kind?, accesses⟩ := report
  cases accesses with
  | nil => exact Prod.ext noneBefore rfl
  | cons access accesses =>
      have gathered := owners_touched (access :: accesses) rest
      rw [noneBefore, List.append_nil] at gathered
      change owners (.owner stage kind? :: ((access :: accesses).map .touched ++ rest)) = _
      rw [owners, gathered]
      rfl

theorem owners_flatMap_lines (reports : List OwnerReport) {rest : List ReportLine}
    (noneBefore : (owners rest).1 = []) :
    owners (reports.flatMap OwnerReport.lines ++ rest) =
      ([], (reports.filter fun report => !report.accesses.isEmpty) ++ (owners rest).2) := by
  induction reports with
  | nil => exact Prod.ext noneBefore rfl
  | cons report reports ih =>
      rw [List.flatMap_cons, List.append_assoc, owners_lines report (congrArg Prod.fst ih), ih,
        List.filter_cons]
      cases report.accesses.isEmpty <;> rfl

end ReportLine

namespace DatasetReport

open ReportLine

/-- The report that some lines show. -/
def ofLines? : List ReportLine → Option DatasetReport
  | .header dataset kind :: lines =>
      some
        { dataset, kind
          analyzed := false
          owners := (ReportLine.owners lines).2
          shared := lines.filterMap shared?
          stageLocals := lines.filterMap stageLocal? }
  | _ => none

theorem sharedTitle_mem_lines_iff (report : DatasetReport) :
    sharedTitle ∈ report.lines ↔ report.shared ≠ [] := by
  simp [lines, OwnerReport.lines, mem_titled_iff]

theorem stageLocalTitle_mem_lines_iff (report : DatasetReport) :
    stageLocalTitle ∈ report.lines ↔ report.stageLocals ≠ [] := by
  simp [lines, OwnerReport.lines, mem_titled_iff]

/-- A view that sees neither the header nor the owners sees the two sections. -/
theorem filterMap_lines {View : Type} {view : ReportLine → Option View}
    (noHeader : ∀ dataset kind, view (.header dataset kind) = none)
    (noOwner : ∀ stage kind?, view (.owner stage kind?) = none)
    (noAccess : ∀ access, view (.touched access) = none)
    (noSharedTitle : view .sharedTitle = none) (noLocalTitle : view .stageLocalTitle = none)
    (report : DatasetReport) :
    report.lines.filterMap view =
      (report.shared.filterMap fun entry => view (.shared entry))
        ++ report.stageLocals.filterMap fun attr => view (.stageLocal attr) := by
  have noOwners : (report.owners.flatMap OwnerReport.lines).filterMap view = [] := by
    rw [List.filterMap_flatMap, List.flatMap_eq_nil_iff]
    intro owner _
    rw [OwnerReport.lines, filterMap_titled (noOwner _ _), List.filterMap_map]
    simp [noAccess]
  rw [lines, List.filterMap_append, List.filterMap_append, filterMap_titled noSharedTitle,
    filterMap_titled noLocalTitle, List.filterMap_cons_none (noHeader _ _), noOwners,
    List.filterMap_map, List.filterMap_map]
  rfl

theorem filterMap_shared?_lines (report : DatasetReport) :
    report.lines.filterMap shared? = report.shared := by
  rw [filterMap_lines (fun _ _ => rfl) (fun _ _ => rfl) (fun _ => rfl) rfl rfl]
  simp [shared?]

theorem filterMap_stageLocal?_lines (report : DatasetReport) :
    report.lines.filterMap stageLocal? = report.stageLocals := by
  rw [filterMap_lines (fun _ _ => rfl) (fun _ _ => rfl) (fun _ => rfl) rfl rfl]
  simp [stageLocal?]

theorem ofLines?_lines (report : DatasetReport) : ofLines? report.lines = some report.shown := by
  have sharedEq := report.filterMap_shared?_lines
  have localEq := report.filterMap_stageLocal?_lines
  have noneBelow : ReportLine.owners (titled .sharedTitle (report.shared.map .shared)
      ++ titled .stageLocalTitle (report.stageLocals.map .stageLocal)) = ([], []) := by
    rw [owners_titled (fun _ => rfl) fun _ _ => rfl,
      ← List.append_nil (titled .stageLocalTitle _), owners_titled (fun _ => rfl) fun _ _ => rfl]
    rfl
  have ownersEq := owners_flatMap_lines report.owners (congrArg Prod.fst noneBelow)
  rw [lines, List.cons_append, List.cons_append] at sharedEq localEq ⊢
  rw [List.filterMap_cons_none rfl] at sharedEq localEq
  rw [ofLines?, sharedEq, localEq, List.append_assoc, ownersEq, noneBelow, List.append_nil]
  rfl

/-- The lines of a report do not change where what they leave out is dropped. -/
theorem lines_shown (report : DatasetReport) : report.shown.lines = report.lines := by
  have ownersEq : (report.owners.filter fun owner => !owner.accesses.isEmpty).flatMap
      OwnerReport.lines = report.owners.flatMap OwnerReport.lines := by
    induction report.owners with
    | nil => rfl
    | cons owner owners ih =>
        rw [List.filter_cons, List.flatMap_cons, ← ih]
        split
        · rfl
        next touchesNothing =>
            have noAccesses : owner.accesses = [] := by simpa using touchesNothing
            rw [OwnerReport.lines, noAccesses]
            rfl
  rw [lines, lines, shown, ownersEq]

/-- Reports have the same lines exactly if they show the same. -/
theorem lines_eq_iff {report other : DatasetReport} :
    report.lines = other.lines ↔ report.shown = other.shown := by
  constructor
  · intro sameLines
    have sameShown := report.ofLines?_lines
    rw [sameLines, ofLines?_lines] at sameShown
    exact (Option.some.inj sameShown).symm
  · intro sameShown
    rw [← report.lines_shown, sameShown, lines_shown]

end DatasetReport

namespace Dataset

open ReportLine

/-- The text report of a dataset, in whatever state it is, is the print of its structured
report.  A section is there exactly if it has entries, the lines show all of the report but
the mark of the analysis and the owners that touch nothing, and reports that differ at most
in the mark have the same text. -/
theorem textReport_prints_report (dataset : Dataset) (stages : StageId → Option Stage) :
    let report := dataset.report stages
    dataset.textReport stages = report.print
      ∧ (sharedTitle ∈ report.lines ↔ report.shared ≠ [])
      ∧ (stageLocalTitle ∈ report.lines ↔ report.stageLocals ≠ [])
      ∧ DatasetReport.ofLines? report.lines = some report.shown
      ∧ ∀ (other : Dataset) (otherStages : StageId → Option Stage),
        let otherReport := other.report otherStages
        (otherReport.lines = report.lines ↔ otherReport.shown = report.shown)
          ∧ ({ otherReport with analyzed := report.analyzed } = report →
            other.textReport otherStages = dataset.textReport stages) := by
  intro report
  refine ⟨dataset.textReport_eq_print stages, report.sharedTitle_mem_lines_iff,
    report.stageLocalTitle_mem_lines_iff, report.ofLines?_lines, ?_⟩
  intro other otherStages otherReport
  refine ⟨DatasetReport.lines_eq_iff, ?_⟩
  intro sameButMark
  have sameShown : otherReport.shown = report.shown := by
    rw [← sameButMark]
    rfl
  rw [textReport_eq_print, textReport_eq_print, DatasetReport.print, DatasetReport.print,
    DatasetReport.lines_eq_iff.mpr sameShown]

/-- The first owner is listed again after one that does not exist, and the last one touches
nothing. -/
theorem textReport_prints_report_stale :
    let mover : Stage := { kind := .update }
    let stages (id : StageId) : Option Stage := if id.index < 7 then some mover else none
    let dataset : Dataset :=
      { id := ⟨3⟩, kind := .particle, owners := [⟨0⟩, ⟨7⟩, ⟨0⟩, ⟨2⟩]
        table :=
          { rows := [⟨⟨7⟩, .age, .writeCurrent⟩, ⟨⟨0⟩, .age, .readWriteCurrent⟩]
            slots := [(.age, [0, 1])] }
        plan := ⟨[(.age, .shared 0xE), (.size, .stageLocal)]⟩
        analyzed := true }
    let report := dataset.report stages
    { dataset.markStale.report stages with analyzed := report.analyzed } = report
      ∧ dataset.markStale.textReport stages = dataset.textReport stages
      ∧ report.lines =
        [.header ⟨3⟩ .particle, .owner ⟨0⟩ (some .update), .touched ⟨.age, .readWriteCurrent⟩,
          .owner ⟨7⟩ none, .touched ⟨.age, .writeCurrent⟩, .owner ⟨0⟩ (some .update),
          .touched ⟨.age, .readWriteCurrent⟩, .sharedTitle, .shared ⟨.age, 0xE⟩,
          .stageLocalTitle, .stageLocal .size] := by
  intro mover stages dataset report
  have sameButMark :
      { dataset.markStale.report stages with analyzed := report.analyzed } = report := by decide
  exact ⟨sameButMark,
    ((dataset.textReport_prints_report stages).2.2.2.2 dataset.markStale stages).2 sameButMark,
    by decide⟩

end Dataset

end AttributeFlow
