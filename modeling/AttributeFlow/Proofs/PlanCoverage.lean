import AttributeFlow.Backend
import AttributeFlow.Proofs.AnalysisDependence
import AttributeFlow.Proofs.PlacementMeaning
import Mathlib.Data.List.Induction

/-!
# Plans that cover the table

A plan is made of the table that a dataset has at that time.  Owners that come or go
make the dataset stale, but an access that is added and a table that is collected anew
do not, so the table of a dataset may change while the dataset goes on to count as
analyzed.  This is the only way in which the plan of an analyzed dataset can fall
behind its table, and the next plan makes up for it.
-/

namespace AttributeFlow.Dataset

/-- Something that is done to a dataset.  Stages, expressions and options may be others
each time. -/
inductive Step
  | addOwner (stage : StageId)
  | dropOwner (stage : StageId)
  | markStale
  | addAccess (stage : StageId) (access : Access)
  | retable (stages : StageId → Option Stage) (arena : ExpressionArena) (options : AnalysisOptions)
  | replan (stages : StageId → Option Stage)
  | analyze (stages : StageId → Option Stage) (arena : ExpressionArena) (options : AnalysisOptions)

/-- The dataset after a step, whether or not the step was refused. -/
def perform (dataset : Dataset) : Step → Dataset
  | .addOwner stage => (dataset.addOwner stage).state
  | .dropOwner stage => (dataset.dropOwner stage).state
  | .markStale => dataset.markStale
  | .addAccess stage access =>
      match dataset.addAccess stage access with
      | .ok (next, _) => next
      | .error _ => dataset
  | .retable stages arena options => (dataset.retable stages arena options).state
  | .replan stages => (dataset.replan stages).state
  | .analyze stages arena options => (dataset.analyze stages arena options).state

def run (dataset : Dataset) (steps : List Step) : Dataset :=
  steps.foldl perform dataset

/-- Whether the step changes the table of a dataset without a look at its plan. -/
def Step.editsTable : Step → Bool
  | .addAccess _ _ | .retable _ _ _ => true
  | _ => false

/-- Whether the dataset gets a new plan from the step. -/
def getsPlan (dataset : Dataset) : Step → Bool
  | .replan stages => (dataset.replan stages).answer.isOk
  | .analyze stages arena options => (dataset.analyze stages arena options).answer.isOk
  | _ => false

/-- The plan has an entry for each attribute of the table, and no others. -/
def Covered (dataset : Dataset) : Prop :=
  dataset.plan.entries.map Prod.fst = dataset.table.attributes

/-- The step gives other attributes to the table of a dataset that counts as analyzed. -/
def OutdatesPlan (dataset : Dataset) (step : Step) : Prop :=
  dataset.analyzed = true ∧ step.editsTable = true
    ∧ (dataset.perform step).table.attributes ≠ dataset.table.attributes

/-- After the steps the plan is behind the table: the last step has outdated it, or it was
behind before and the last step gave the dataset no other plan. -/
inductive FallsBehind (dataset : Dataset) : List Step → Prop
  | outdated {steps : List Step} {step : Step} (outdates : (dataset.run steps).OutdatesPlan step) :
      FallsBehind dataset (steps ++ [step])
  | remains {steps : List Step} {step : Step} (behind : FallsBehind dataset steps)
      (getsNone : (dataset.run steps).getsPlan step = false) :
      FallsBehind dataset (steps ++ [step])

variable {dataset : Dataset} {steps : List Step} {step : Step}

theorem run_concat (dataset : Dataset) (steps : List Step) (step : Step) :
    dataset.run (steps ++ [step]) = (dataset.run steps).perform step :=
  List.foldl_concat _ _ _ _

theorem analyzed_of_create {id : DatasetId} {feed : Feed} (created : create id feed = .ok dataset) :
    dataset.analyzed = false := by
  obtain ⟨kind, rfl⟩ := exists_kind_of_create created
  rfl

/-- Only an analysis that succeeds leaves a dataset analyzed. -/
theorem isOk_answer_of_analyzed {stages : StageId → Option Stage} {arena : ExpressionArena}
    {options : AnalysisOptions}
    (analyzed : (dataset.analyze stages arena options).state.analyzed = true) :
    (dataset.analyze stages arena options).answer.isOk = true := by
  obtain ⟨same, standing⟩ := dataset.analyze_outcome stages arena options
  obtain ⟨_, effort, answered⟩ := (standing analyzed).analyze_eq analyzed
    ⟨same.id_eq.symm, same.kind_eq.symm, same.owners_eq.symm⟩
  rw [answered]
  rfl

/-- A new plan covers the table. -/
theorem covered_of_getsPlan (gets : dataset.getsPlan step = true) :
    (dataset.perform step).Covered := by
  cases step with
  | replan stages =>
      cases planned : (dataset.classification stages).plan with
      | error fault =>
          rw [getsPlan, (replan_of_error planned).2] at gets
          cases gets
      | ok plan =>
          rw [perform, (replan_of_ok planned).1]
          exact Classification.map_fst_entries planned
  | analyze stages arena options =>
      cases answered : (dataset.analyze stages arena options).answer with
      | error fault =>
          rw [getsPlan, answered] at gets
          cases gets
      | ok effort =>
          exact Classification.map_fst_entries (isCurrent_of_analyze_ok answered).plan_eq
  | _ => cases gets

/-- A step that leaves the dataset analyzed and gives it no plan keeps the plan it has, and
the table as well unless it edits it. -/
theorem kept_of_not_getsPlan (getsNone : dataset.getsPlan step = false)
    (analyzed : (dataset.perform step).analyzed = true) :
    dataset.analyzed = true ∧ (dataset.perform step).plan = dataset.plan
      ∧ (step.editsTable = false → (dataset.perform step).table = dataset.table) := by
  cases step with
  | addOwner stage =>
      rw [perform, addOwner] at analyzed ⊢
      split at analyzed
      next present =>
          rw [if_pos present]
          exact ⟨analyzed, rfl, fun _ => rfl⟩
      next => cases analyzed
  | dropOwner stage =>
      rw [perform, dropOwner] at analyzed ⊢
      split at analyzed
      next => cases analyzed
      next absent =>
          rw [if_neg absent]
          exact ⟨analyzed, rfl, fun _ => rfl⟩
  | markStale => cases analyzed
  | addAccess stage access =>
      rw [perform, addAccess] at analyzed ⊢
      cases merged : dataset.table.merge stage access with
      | error fault =>
          rw [merged] at analyzed
          exact ⟨analyzed, rfl, fun _ => rfl⟩
      | ok outcome =>
          rw [merged] at analyzed
          exact ⟨analyzed, rfl, fun impossible => nomatch impossible⟩
  | retable stages arena options =>
      exact ⟨analyzed, rfl, fun impossible => nomatch impossible⟩
  | replan stages =>
      cases planned : (dataset.classification stages).plan with
      | error fault =>
          rw [perform, (replan_of_error planned).1] at analyzed ⊢
          exact ⟨analyzed, rfl, fun _ => rfl⟩
      | ok plan =>
          rw [getsPlan, (replan_of_ok planned).2] at getsNone
          cases getsNone
  | analyze stages arena options =>
      rw [getsPlan, isOk_answer_of_analyzed analyzed] at getsNone
      cases getsNone

/-- A step that gives no plan to a dataset that it leaves analyzed outdates its plan unless
the table stays covered. -/
theorem covered_perform (covered : dataset.Covered) (getsNone : dataset.getsPlan step = false)
    (analyzed : (dataset.perform step).analyzed = true) :
    (dataset.perform step).Covered ∨ dataset.OutdatesPlan step := by
  obtain ⟨wasAnalyzed, planEq, tableKept⟩ := kept_of_not_getsPlan getsNone analyzed
  by_cases same : (dataset.perform step).table.attributes = dataset.table.attributes
  · left
    rw [Covered, planEq, same]
    exact covered
  · right
    refine ⟨wasAnalyzed, ?_, same⟩
    by_contra keepsTable
    rw [Bool.not_eq_true] at keepsTable
    exact same (congrArg AccessTable.attributes (tableKept keepsTable))

/-- After any steps a dataset that counts as analyzed has a plan that covers its table, or
the plan has fallen behind. -/
theorem covered_run (covered : dataset.analyzed = true → dataset.Covered) (steps : List Step)
    (analyzed : (dataset.run steps).analyzed = true) :
    (dataset.run steps).Covered ∨ dataset.FallsBehind steps := by
  induction steps using List.reverseRecOn with
  | nil => exact Or.inl (covered analyzed)
  | append_singleton steps step ih =>
      rw [run_concat] at analyzed ⊢
      cases gets : (dataset.run steps).getsPlan step with
      | true => exact Or.inl (covered_of_getsPlan gets)
      | false =>
          have wasAnalyzed := (kept_of_not_getsPlan gets analyzed).1
          rcases ih wasAnalyzed with stillCovered | behind
          · exact (covered_perform stillCovered gets analyzed).imp_right .outdated
          · exact Or.inr (.remains behind gets)

/-- As long as the plan covers the table, a backend is given a plan with every attribute
that code may be asked for. -/
theorem Covered.mem_of_loadCode (covered : dataset.Covered) {State : Type}
    {backend : Backend State} {attr : Attribute} {code : String}
    (loaded : dataset.loadCode backend attr = .ok code) :
    attr ∈ dataset.plan.entries.map Prod.fst := by
  rw [covered, ← AccessTable.contains_iff_mem]
  by_contra unused
  rw [Bool.not_eq_true] at unused
  rw [loadCode, permitCode, unused] at loaded
  split at loaded
  · cases loaded
  · cases loaded

/-- Whatever is done to a dataset after it was created, while it counts as analyzed its plan
has an entry for each attribute of its table, and a backend that lays out the dataset is
given an entry for each attribute that can be loaded.  The only exception is a plan that
has fallen behind, because the table of an analyzed dataset was edited and no plan has
been made since. -/
theorem plan_covers_table {id : DatasetId} {feed : Feed} {created : Dataset}
    (isCreated : create id feed = .ok created) (steps : List Step)
    (analyzed : (created.run steps).analyzed = true) :
    let after := created.run steps
    (after.plan.entries.map Prod.fst = after.table.attributes
        ∧ ∀ (State : Type) (backend : Backend State) (state : State),
          (after.kind.capabilities.layout = true →
            after.layOut backend state = backend.layout after.kind after.plan state)
          ∧ ∀ attr code, after.loadCode backend attr = .ok code →
            attr ∈ after.plan.entries.map Prod.fst)
      ∨ created.FallsBehind steps := by
  intro after
  have isNew : created.analyzed = false := analyzed_of_create isCreated
  have coveredOrBehind : after.Covered ∨ created.FallsBehind steps := by
    apply covered_run _ steps analyzed
    intro impossible
    rw [isNew] at impossible
    cases impossible
  refine coveredOrBehind.imp_left ?_
  intro covered
  refine ⟨covered, ?_⟩
  intro State backend state
  refine ⟨?_, fun _ _ loaded => covered.mem_of_loadCode loaded⟩
  intro hasLayout
  have analyzedAfter : after.analyzed = true := analyzed
  rw [layOut, hasLayout, analyzedAfter]
  rfl

/-- An added color outdates the plan, and the next plan covers it. -/
theorem plan_covers_table_color :
    let ageing : Stage := { kind := .update, usages := [.always (.readWrite .age)] }
    let stages (id : StageId) : Option Stage := if id = ⟨0⟩ then some ageing else none
    let steps : List Step :=
      [.addOwner ⟨0⟩, .analyze stages {} {}, .addAccess ⟨0⟩ (.readWrite .color), .replan stages]
    let created : Dataset := { id := ⟨0⟩, kind := .particle }
    let after := created.run steps
    create ⟨0⟩ ⟨some .particle⟩ = .ok created
      ∧ after.analyzed = true
      ∧ after.plan = ⟨[(.age, .shared 3), (.color, .shared 3)]⟩
      ∧ (after.plan.entries.map Prod.fst = after.table.attributes ∨ created.FallsBehind steps) := by
  intro ageing stages steps created after
  have isCreated : create ⟨0⟩ ⟨some .particle⟩ = .ok created := rfl
  have analyzed : after.analyzed = true := by decide
  have covers := plan_covers_table isCreated steps analyzed
  have sameRun : created.run steps = after := rfl
  rw [sameRun] at covers
  refine ⟨isCreated, analyzed, ?_, ?_⟩
  · decide
  · exact covers.imp_left And.left

/-- Without a next plan the dataset goes on to count as analyzed, and a layout of it has no
entry for the color, which can be loaded. -/
theorem plan_misses_color :
    let ageing : Stage := { kind := .update, usages := [.always (.readWrite .age)] }
    let stages (id : StageId) : Option Stage := if id = ⟨0⟩ then some ageing else none
    let before : List Step := [.addOwner ⟨0⟩, .analyze stages {} {}]
    let edit : Step := .addAccess ⟨0⟩ (.readWrite .color)
    let created : Dataset := { id := ⟨0⟩, kind := .particle }
    let after := created.run (before ++ [edit])
    let backend : Backend PlacementPlan :=
      { layout := fun _ plan _ => .ok plan, load := fun attr => .ok attr.name }
    create ⟨0⟩ ⟨some .particle⟩ = .ok created
      ∧ after.analyzed = true
      ∧ after.plan.entries.map Prod.fst = [.age] ∧ after.table.attributes = [.age, .color]
      ∧ (after.layOut backend {}).toOption = some ⟨[(.age, .shared 3)]⟩
      ∧ (after.loadCode backend .color).toOption = some "color"
      ∧ created.FallsBehind (before ++ [edit]) := by
  intro ageing stages before edit created after backend
  refine ⟨rfl, ?_, ?_, ?_, ?_, ?_, ?_⟩
  · decide
  · decide
  · decide
  · decide
  · decide
  · apply FallsBehind.outdated
    refine ⟨?_, rfl, ?_⟩
    · decide
    · decide

end AttributeFlow.Dataset
