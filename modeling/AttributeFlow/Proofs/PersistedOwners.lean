import AttributeFlow.Proofs.AnalysisViews
import AttributeFlow.Proofs.WireTexts

/-!
# Persisted owners

The text of a dataset says who owns it, and not what was derived from the owners.
Nothing is lost that way: an analysis forgets whatever was derived before it, so the
dataset that is read back and the one that was written cannot be told apart by
analyzing both.
-/

namespace AttributeFlow

namespace Dataset

variable {dataset other : Dataset}

/-- Datasets with the same owners become the same dataset by an analysis that succeeds,
and have the same table and answer after any analysis. -/
theorem SameOwners.analyze_congr (same : dataset.SameOwners other)
    (stages : StageId → Option Stage) (arena : ExpressionArena) (options : AnalysisOptions) :
    let after := dataset.analyze stages arena options
    let otherAfter := other.analyze stages arena options
    after.answer = otherAfter.answer ∧ after.state.table = otherAfter.state.table
      ∧ ∀ effort, after.answer = .ok effort → after.state = otherAfter.state := by
  intro after otherAfter
  obtain ⟨answerEq, tableEq, planEq⟩ :=
    analyze_congr_of_views same (fun _ _ => rfl : dataset.SameViews stages arena stages arena)
      options
  refine ⟨answerEq, tableEq, ?_⟩
  intro effort succeeded
  have samePlan := planEq effort succeeded
  obtain ⟨_, plan, _, stateEq⟩ := planned_of_analyze_ok succeeded
  obtain ⟨_, otherPlan, _, otherStateEq⟩ := planned_of_analyze_ok (answerEq.symm.trans succeeded)
  rw [stateEq, otherStateEq] at tableEq samePlan ⊢
  rw [Dataset.mk.injEq]
  exact ⟨same.id_eq, same.kind_eq, same.owners_eq, tableEq, samePlan, rfl⟩

/-- A dataset is read back from its text with its name, its kind and its owners only, and
whatever had been derived from them makes no difference to the analyses of it. -/
theorem analyze_read?_write (dataset : Dataset) :
    ∃ restored : Dataset, JsonForm.read? (JsonForm.write dataset) = some restored
      ∧ restored.id = dataset.id ∧ restored.kind = dataset.kind
      ∧ restored.owners = dataset.owners
      ∧ restored.table = {} ∧ restored.plan = {} ∧ restored.analyzed = false
      ∧ ∀ (stages : StageId → Option Stage) (arena : ExpressionArena) (options : AnalysisOptions),
        let after := dataset.analyze stages arena options
        let restoredAfter := restored.analyze stages arena options
        restoredAfter.answer = after.answer
          ∧ restoredAfter.state.table.rows = after.state.table.rows
          ∧ ∀ effort, after.answer = .ok effort →
            restoredAfter.state.plan = after.state.plan ∧ restoredAfter.state = after.state := by
  let restored : Dataset := { id := dataset.id, kind := dataset.kind, owners := dataset.owners }
  have readBack : JsonForm.read? (JsonForm.write dataset) = some restored :=
    (JsonForm.read?_write_eq dataset).trans (ofJson?_toJson_dataset dataset)
  refine ⟨restored, readBack, rfl, rfl, rfl, rfl, rfl, rfl, ?_⟩
  intro stages arena options after restoredAfter
  have same : restored.SameOwners dataset := ⟨rfl, rfl, rfl⟩
  obtain ⟨answerEq, tableEq, stateEq⟩ := same.analyze_congr stages arena options
  refine ⟨answerEq, congrArg AccessTable.rows tableEq, ?_⟩
  intro effort succeeded
  have sameState := stateEq effort (answerEq.trans succeeded)
  exact ⟨congrArg Dataset.plan sameState, sameState⟩

end Dataset

end AttributeFlow
