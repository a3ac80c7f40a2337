import AttributeFlow.Proofs.AnalysisDependence
import AttributeFlow.Proofs.PlacementGrowth

/-!
# Analyses of datasets that grow

Stages may be given further usages, operations and expressions at any position, and
further stages may be put after the owners of a dataset.  Declarations then trigger
each other in all the ways they did before.  So an analysis that still succeeds finds
every flag that was found before, and shares every attribute that was shared.
-/

namespace AttributeFlow

/-- A stage is of the same kind as another one and declares all that it declares. -/
structure Stage.Extends (wider stage : Stage) : Prop where
  kind_eq : wider.kind = stage.kind
  usages : stage.usages ⊆ wider.usages
  optional : stage.optional ⊆ wider.optional
  expressions : ∀ device, stage.expressions.on device ⊆ wider.expressions.on device
  operations : ∀ operation ∈ stage.operations, operation.enabled = true →
    ∃ other ∈ wider.operations, other.enabled = true ∧ operation.usages ⊆ other.usages
  implicit : ∀ operation ∈ stage.implicit,
    ∃ other ∈ wider.implicit, operation.usages ⊆ other.usages

/-- A dataset has the owners of another one in front of any others, and the stages of
these owners extend what they were. -/
structure Dataset.Extends (wider dataset : Dataset)
    (widerStages stages : StageId → Option Stage) : Prop where
  kind_eq : wider.kind = dataset.kind
  owners : dataset.owners <+: wider.owners
  stages : ∀ owner ∈ dataset.owners, ∀ stage, stages owner = some stage →
    ∃ widerStage, widerStages owner = some widerStage ∧ widerStage.Extends stage

variable {stages widerStages : StageId → Option Stage} {arena : ExpressionArena}
  {options widerOptions : AnalysisOptions} {effort widerEffort : Effort}

theorem Stage.Extends.refl (stage : Stage) : stage.Extends stage where
  kind_eq := rfl
  usages := List.Subset.refl _
  optional := List.Subset.refl _
  expressions _ := List.Subset.refl _
  operations operation member enabled := ⟨operation, member, enabled, List.Subset.refl _⟩
  implicit operation member := ⟨operation, member, List.Subset.refl _⟩

theorem Stage.Extends.declares {wider stage : Stage} (extension : wider.Extends stage)
    {device : Device} {usage : Usage} (declares : stage.Declares arena device usage) :
    wider.Declares arena device usage := by
  cases declares with
  | own member => exact .own (extension.usages member)
  | explicit member enabled declared =>
      obtain ⟨other, otherMem, otherEnabled, kept⟩ := extension.operations _ member enabled
      exact .explicit otherMem otherEnabled (kept declared)
  | implicit member declared =>
      obtain ⟨other, otherMem, kept⟩ := extension.implicit _ member
      exact .implicit otherMem (kept declared)
  | optional member => exact .optional (extension.optional member)
  | expression member depends => exact .expression (extension.expressions device member) depends

namespace Dataset

variable {dataset wider : Dataset}

theorem Extends.declares (extension : wider.Extends dataset widerStages stages) {id : StageId}
    {usage : Usage} (declares : dataset.Declares stages arena id usage) :
    wider.Declares widerStages arena id usage := by
  obtain ⟨isOwner, stage, known, declared⟩ := declares
  obtain ⟨widerStage, widerKnown, stageExtension⟩ := extension.stages id isOwner stage known
  refine ⟨extension.owners.subset isOwner, widerStage, widerKnown, ?_⟩
  rw [extension.kind_eq]
  exact stageExtension.declares declared

/-- The tables of two current datasets grow as the datasets do. -/
theorem Extends.growsTo (extension : wider.Extends dataset widerStages stages)
    (acyclic : arena.Acyclic) (current : dataset.IsCurrent stages arena options)
    (widerCurrent : wider.IsCurrent widerStages arena widerOptions) :
    dataset.table.GrowsTo wider.table (fun id => (stages id).map Stage.kind)
      fun id => (widerStages id).map Stage.kind := by
  obtain ⟨effort, collected⟩ := current.collected
  obtain ⟨widerEffort, widerCollected⟩ := widerCurrent.collected
  obtain ⟨reached, justified, _⟩ := justified_and_covers_of_collect_ok acyclic collected
  obtain ⟨widerReached, _, covers⟩ := justified_and_covers_of_collect_ok acyclic widerCollected
  rw [current.table_eq] at reached justified
  rw [widerCurrent.table_eq] at widerReached covers
  refine ⟨reached.coherent, widerReached.coherent, ?_, ?_⟩
  · -- The runs of passes need not resemble each other: a flag has a contribution behind it,
    -- and the wider dataset makes the same contribution.
    intro attr id flag present
    obtain ⟨mode, contributes, modeHas⟩ := justified attr id flag present
    have covered := covers id ⟨attr, mode⟩ (contributes.mono fun _ _ => extension.declares)
    exact Mode.includes_iff.mp covered.2 flag modeHas
  · intro row member kind kindEq
    obtain ⟨stage, known, rfl⟩ := Option.map_eq_some_iff.mp kindEq
    obtain ⟨widerStage, widerKnown, stageExtension⟩ :=
      extension.stages row.stage (current.mem_owners row member) stage known
    rw [widerKnown, Option.map_some, stageExtension.kind_eq]

/-- If a dataset is extended and both analyses succeed, every mode that was found
before is found again, maybe with more flags, and every attribute that was shared is
shared again, with a key that has all bits it had before. -/
theorem analyze_grows (extension : wider.Extends dataset widerStages stages)
    (acyclic : arena.Acyclic)
    (analyzed : (dataset.analyze stages arena options).answer = .ok effort)
    (widerAnalyzed : (wider.analyze widerStages arena widerOptions).answer = .ok widerEffort) :
    let before := (dataset.analyze stages arena options).state
    let after := (wider.analyze widerStages arena widerOptions).state
    (∀ attr id, (after.modeAt attr id).includes (before.modeAt attr id) = true)
      ∧ ∀ attr key, before.plan.key? attr = some key → after.plan.isLocal attr = false
        ∧ ∃ widerKey, after.plan.key? attr = some widerKey ∧ key &&& widerKey = key := by
  intro before after
  have same : before.SameOwners dataset := (dataset.analyze_outcome stages arena options).1
  have widerSame : after.SameOwners wider :=
    (wider.analyze_outcome widerStages arena widerOptions).1
  have current : before.IsCurrent stages arena options := isCurrent_of_analyze_ok analyzed
  have widerCurrent : after.IsCurrent widerStages arena widerOptions :=
    isCurrent_of_analyze_ok widerAnalyzed
  have analyzedExtension : after.Extends before widerStages stages := by
    refine ⟨?_, ?_, ?_⟩
    · rw [widerSame.kind_eq, same.kind_eq, extension.kind_eq]
    · rw [widerSame.owners_eq, same.owners_eq]
      exact extension.owners
    · rw [same.owners_eq]
      exact extension.stages
  have grows := analyzedExtension.growsTo acyclic current widerCurrent
  constructor
  · intro attr id
    exact Mode.includes_iff.mpr (grows.within attr id)
  · intro attr key shared
    exact grows.key?_grows analyzedExtension.owners current.plan_eq widerCurrent.plan_eq shared

/-- The color is read by the second owner.  An expression that is added triggers a
write of it by the same owner, and an output stage that is added reads it. -/
theorem analyze_grows_color :
    let writer : Stage := { kind := .init, usages := [.always (.write .color)] }
    let reader : Stage :=
      { kind := .update
        usages := [.always (.write .position), .whenUsed (.read .color) .position] }
    let wideReader : Stage :=
      { kind := .update
        usages := [.whenUsed (.write .color) .size, .always (.write .position),
          .whenUsed (.read .color) .position]
        expressions := { gpu := [⟨1⟩] } }
    let output : Stage := { kind := .output, usages := [.always (.read .color)] }
    let arena : ExpressionArena := ⟨#[⟨"size", true, [], [.read .size]⟩, ⟨"sum", true, [⟨0⟩], []⟩]⟩
    let stages (id : StageId) : Option Stage :=
      if id = ⟨0⟩ then some writer else if id = ⟨1⟩ then some reader else none
    let widerStages (id : StageId) : Option Stage :=
      if id = ⟨0⟩ then some writer
      else if id = ⟨1⟩ then some wideReader
      else if id = ⟨2⟩ then some output
      else none
    let dataset : Dataset := { id := ⟨0⟩, kind := .particle, owners := [⟨0⟩, ⟨1⟩] }
    let wider : Dataset := { dataset with owners := [⟨0⟩, ⟨1⟩, ⟨2⟩] }
    let before := (dataset.analyze stages arena {}).state
    let after := (wider.analyze widerStages arena {}).state
    arena.Acyclic
      ∧ wider.Extends dataset widerStages stages
      ∧ (dataset.analyze stages arena {}).answer = .ok ⟨3, 3⟩
      ∧ (wider.analyze widerStages arena {}).answer = .ok ⟨3, 6⟩
      ∧ before.plan.key? .color = some 4
      ∧ after.plan.key? .color = some 28
      ∧ (after.modeAt .color ⟨1⟩).includes (before.modeAt .color ⟨1⟩) = true
      ∧ after.plan.isLocal .color = false := by
  intro writer reader wideReader output arena stages widerStages dataset wider before after
  have acyclic : arena.Acyclic := ExpressionArena.acyclic_of_inputs_earlier (by decide)
  have readerExtension : wideReader.Extends reader := by
    refine ⟨rfl, ?_, List.Subset.refl _, ?_, by simp [reader], by simp [reader]⟩
    · exact List.subset_cons_self _ _
    · intro device
      cases device <;> simp [reader, StageExpressions.on]
  have extension : wider.Extends dataset widerStages stages := by
    refine ⟨rfl, ⟨[⟨2⟩], rfl⟩, ?_⟩
    intro owner isOwner stage known
    have firstOrSecond : owner = ⟨0⟩ ∨ owner = ⟨1⟩ := by simpa [dataset] using isOwner
    rcases firstOrSecond with rfl | rfl
    · cases known
      exact ⟨writer, rfl, Stage.Extends.refl writer⟩
    · cases known
      exact ⟨wideReader, rfl, readerExtension⟩
  have analyzed : (dataset.analyze stages arena {}).answer = .ok ⟨3, 3⟩ := by decide
  have widerAnalyzed : (wider.analyze widerStages arena {}).answer = .ok ⟨3, 6⟩ := by decide
  have shared : before.plan.key? .color = some 4 := by decide
  have grown := analyze_grows extension acyclic analyzed widerAnalyzed
  exact ⟨acyclic, extension, analyzed, widerAnalyzed, shared, by decide, grown.1 .color ⟨1⟩,
    (grown.2 .color 4 shared).1⟩

end Dataset

end AttributeFlow
