import AttributeFlow.Backend
import AttributeFlow.Proofs.EffectRuns

/-!
# Analyses that stand

An analysis is left out where the last one still stands.  In a consistent effect
this cannot be told from carrying it out: the dataset already is what an analysis
of its owners makes of it, and so is the plan that a backend is given.
-/

namespace AttributeFlow

/-- The dataset as it is before its first analysis. -/
def Dataset.unanalyzed (dataset : Dataset) : Dataset :=
  { id := dataset.id, kind := dataset.kind, owners := dataset.owners }

namespace Effect

variable {effect : Effect}

/-- An analysis of a consistent effect that may be left out comes to the same as one
that is carried out. -/
theorem Consistent.analyze_eq_analyzeAnew (consistent : effect.Consistent) (name : DatasetId) :
    (effect.analyze name).state = (effect.analyzeAnew name).state
      ∧ (effect.analyze name).answer = (effect.analyzeAnew name).answer.map fun _ => () := by
  rw [Effect.analyze, Effect.analyzeAnew]
  cases found : effect.dataset name with
  | error fault => exact ⟨rfl, rfl⟩
  | ok dataset =>
      rw [dataset_eq_ok_iff] at found
      dsimp only
      by_cases analyzed : dataset.analyzed = true
      · have current := (consistent.upholds _ dataset found).analysisStands analyzed
        obtain ⟨stateEq, effort, answerEq⟩ := current.analyze_eq analyzed (.refl dataset)
        rw [if_pos analyzed, Reply.mapState, stateEq, answerEq, setDataset_eq_self found]
        exact ⟨rfl, rfl⟩
      · rw [if_neg analyzed]
        exact ⟨rfl, rfl⟩

/-- An analyzed dataset is what an analysis from scratch makes of its owners. -/
theorem Consistent.analyze_unanalyzed (consistent : effect.Consistent) {dataset : Dataset}
    (member : dataset ∈ effect.datasets) (analyzed : dataset.analyzed = true) :
    (dataset.unanalyzed.analyze effect.stage? effect.arena effect.options).state = dataset
      ∧ ∃ effort, (dataset.unanalyzed.analyze effect.stage? effect.arena effect.options).answer =
        .ok effort := by
  obtain ⟨place, found⟩ := List.mem_iff_getElem?.mp member
  have current := (consistent.upholds place dataset found).analysisStands analyzed
  exact current.analyze_eq analyzed ⟨rfl, rfl, rfl⟩

/-- After any run that adds fewer stages than there are names, whether an analysis is
carried out or left out makes no difference, an analyzed dataset is what an analysis
from scratch makes of its owners, and backends are given only the plan of that. -/
theorem analyses_stand (options : AnalysisOptions) (actions : List Action)
    (enoughNames : actions.countP Action.insertsStage < 2 ^ 32) :
    let effect := (empty options).run actions
    (∀ id, (effect.analyze id).state = (effect.analyzeAnew id).state
        ∧ (effect.analyze id).answer = (effect.analyzeAnew id).answer.map fun _ => ())
      ∧ (∀ dataset ∈ effect.datasets, dataset.analyzed = true →
        (dataset.unanalyzed.analyze effect.stage? effect.arena options).state = dataset
          ∧ ∃ effort, (dataset.unanalyzed.analyze effect.stage? effect.arena options).answer =
            .ok effort)
      ∧ ∀ dataset ∈ effect.datasets, ∀ (State : Type) (backend : Backend State) (state : State),
        dataset.layOut backend state =
          if !dataset.kind.capabilities.layout then .error (.noLayout dataset.kind)
          else if !dataset.analyzed then .error (.notAnalyzed dataset.id)
          else backend.layout dataset.kind
            (dataset.unanalyzed.analyze effect.stage? effect.arena options).state.plan state := by
  intro effect
  have consistent : effect.Consistent := by
    apply (consistent_empty options).run
    have counter : (empty options).nextStage.toNat = 0 := rfl
    omega
  have optionsEq : effect.options = options := options_run (empty options) actions
  have stands (dataset : Dataset) (member : dataset ∈ effect.datasets)
      (analyzed : dataset.analyzed = true) := consistent.analyze_unanalyzed member analyzed
  rw [optionsEq] at stands
  refine ⟨consistent.analyze_eq_analyzeAnew, stands, ?_⟩
  intro dataset member State backend state
  rw [Dataset.layOut]
  by_cases analyzed : dataset.analyzed = true
  · rw [(stands dataset member analyzed).1]
  · rw [Bool.not_eq_true] at analyzed
    rw [analyzed, Bool.not_false, if_pos rfl, if_pos rfl]

theorem analyses_stand_edits :
    let writer : Stage := { kind := .init, usages := [.always (.write .color)] }
    let reader : Stage :=
      { kind := .output
        usages := [.whenUsed (.read .alpha) .color]
        expressions := { gpu := [⟨0⟩] } }
    let actions : List Action :=
      [.createDataset ⟨some .particle⟩, .insertStage writer, .insertStage reader,
        .assign ⟨0⟩ (some ⟨0⟩), .assign ⟨1⟩ (some ⟨0⟩), .analyze ⟨0⟩,
        .modifyArena fun arena => arena.pushCurrent .color, .analyzeStale,
        .createDataset ⟨none⟩, .eraseStage ⟨7⟩, .assign ⟨9⟩ none]
    let effect := (empty {}).run actions
    actions.countP Action.insertsStage < 2 ^ 32
      ∧ (effect.analyze ⟨0⟩).state = (effect.analyzeAnew ⟨0⟩).state
      ∧ ∃ dataset, effect.dataset? ⟨0⟩ = some dataset
        ∧ dataset.plan = ⟨[(.color, .shared 4), (.alpha, .stageLocal)]⟩
        ∧ (dataset.unanalyzed.analyze effect.stage? effect.arena {}).state = dataset := by
  intro writer reader actions effect
  have enoughNames : actions.countP Action.insertsStage < 2 ^ 32 := by decide
  have stand := analyses_stand {} actions enoughNames
  have found : (effect.dataset? ⟨0⟩).map (fun dataset => (dataset.analyzed, dataset.plan)) =
      some (true, ⟨[(.color, .shared 4), (.alpha, .stageLocal)]⟩) := by
    decide
  obtain ⟨dataset, datasetEq, partsEq⟩ := Option.map_eq_some_iff.mp found
  rw [Prod.mk.injEq] at partsEq
  have member : dataset ∈ effect.datasets := List.mem_of_getElem? datasetEq
  exact ⟨enoughNames, (stand.1 ⟨0⟩).1, dataset, datasetEq, partsEq.2,
    (stand.2.1 dataset member partsEq.1).1⟩

end Effect

end AttributeFlow
