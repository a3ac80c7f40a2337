import AttributeFlow.Proofs.OwnershipHistory

/-!
# Refused actions

Some actions look things up one after the other and change the effect in between, so a
refusal may find an action half done.  Carried out in this way, an action that is refused
leaves the effect as it was, with two exceptions.  An operation that does not fit its stage
makes the dataset of the stage stale.  An analysis that fails leaves its dataset stale, with
the table as far as it was collected and with the plan that it had.
-/

namespace AttributeFlow

/-- Append an operation to a stage, or leave the stage as it is if the operation does not
fit. -/
def Stage.tryAppend (operation : Operation) (stage : Stage) : Stage × Except Fault Unit :=
  match stage.append operation with
  | .ok longer => (longer, .ok ())
  | .error fault => (stage, .error fault)

namespace Effect

/-- Carry out an action one look-up after the other.  The state is what it leaves behind
wherever it stops. -/
def attempt (effect : Effect) : Action → Reply Effect (Except Fault Unit)
  | .createDataset feed =>
      match effect.createDataset feed with
      | .ok (next, _) => { state := next, answer := .ok () }
      | .error fault => { state := effect, answer := .error fault }
  | .insertStage stage => { state := (effect.insertStage stage).1, answer := .ok () }
  | .eraseStage id => { state := (effect.eraseStage id).1, answer := .ok () }
  | .assign id new? => effect.assignStepwise id new?
  | .modifyStage id edit =>
      (effect.modifyStageStepwise id edit).mapAnswer fun answer => answer.map fun _ => ()
  | .appendOperation id operation =>
      (effect.modifyStageStepwise id (Stage.tryAppend operation)).mapAnswer fun answer =>
        answer.bind fun appended => appended
  | .changeSpace id space => effect.modifyStageStepwise id fun stage => ({ stage with space }, ())
  | .modifyArena edit => { state := (effect.modifyArena edit).1, answer := .ok () }
  | .analyze name => effect.analyze name
  | .analyzeAnew name => (effect.analyzeAnew name).mapAnswer fun answer => answer.map fun _ => ()
  | .analyzeStale => effect.analyzeStale

/-- The action is refused, at once or after some of its look-ups. -/
def Refuses (effect : Effect) (action : Action) : Prop :=
  ∃ fault, (effect.attempt action).answer = .error fault

/-- The two effects differ at most in that the dataset of a stage has become stale. -/
structure StaleAtMost (effect next : Effect) (id : StageId) : Prop where
  settings : effect.SameSettings next
  names_eq : next.names = effect.names
  /-- Stages and assignments are the same. -/
  entry?_eq : ∀ other, next.entry? other = effect.entry? other
  getElem?_datasets : ∀ place : Nat,
    next.datasets[place]? = effect.datasets[place]?
      ∨ effect.IsAt id place
        ∧ next.datasets[place]? = (effect.datasets[place]?).map Dataset.markStale

end Effect

/-- An analysis that fails leaves the plan as it was, whichever of its parts has failed. -/
theorem Dataset.analyze_of_error {dataset : Dataset} {stages : StageId → Option Stage}
    {arena : ExpressionArena} {options : AnalysisOptions} {fault : Fault}
    (failed : (dataset.analyze stages arena options).answer = .error fault) :
    (dataset.analyze stages arena options).state =
      { dataset with
        table := (dataset.collect stages arena options.maxPasses).state
        analyzed := false } := by
  cases collected : (dataset.markStale.retable stages arena options).answer with
  | error collectFault =>
      rw [(analyze_of_retable_error collected).1]
      rfl
  | ok effort =>
      cases planned : ((dataset.markStale.retable stages arena options).state.classification
          stages).plan with
      | error planFault =>
          rw [(analyze_of_plan_error collected planned).1]
          rfl
      | ok plan => cases failed.symm.trans (analyze_of_plan_ok collected planned).2

namespace Effect

variable {effect next : Effect} {id : StageId} {name : DatasetId} {dataset : Dataset}

theorem analyzeAnew_of_error {fault : Fault} (found : effect.dataset? name = some dataset)
    (failed : (effect.analyzeAnew name).answer = .error fault) :
    (effect.analyzeAnew name).state =
      effect.setDataset name
        { dataset with
          table := (dataset.collect effect.stage? effect.arena effect.options.maxPasses).state
          analyzed := false } := by
  rw [analyzeAnew, dataset_eq_ok_iff.mpr found] at failed ⊢
  dsimp only [Reply.mapState] at failed ⊢
  rw [Dataset.analyze_of_error failed]

/-- An analysis that may be left out fails only by being carried out. -/
theorem analyze_of_error {fault : Fault} (failed : (effect.analyze name).answer = .error fault) :
    (effect.analyze name).state = (effect.analyzeAnew name).state
      ∧ (effect.analyzeAnew name).answer = .error fault := by
  rw [analyze] at failed ⊢
  cases found : effect.dataset name with
  | error unknown =>
      rw [found] at failed
      rw [analyzeAnew, found]
      cases failed
      exact ⟨rfl, rfl⟩
  | ok dataset =>
      rw [found] at failed
      dsimp only at failed ⊢
      split at failed
      · cases failed
      next stale =>
          rw [if_neg stale]
          refine ⟨rfl, ?_⟩
          dsimp only [Reply.mapAnswer] at failed
          cases answered : (effect.analyzeAnew name).answer with
          | error other =>
              rw [answered] at failed
              cases failed
              rfl
          | ok effort =>
              rw [answered] at failed
              cases failed

theorem appendOperation_eq (effect : Effect) (id : StageId) (operation : Operation) :
    effect.appendOperation id operation =
      match effect.modifyStage id (Stage.tryAppend operation) with
      | .error fault => { state := effect, answer := .error fault }
      | .ok (edited, answer) => { state := edited, answer } :=
  rfl

theorem modifyStageStepwise_of_missing {Answer : Type} (missing : effect.entry? id = none)
    (edit : Stage → Stage × Answer) :
    effect.modifyStageStepwise id edit =
      { state := effect, answer := .error (.unknownStage id) } := by
  rw [modifyStageStepwise, missing]

/-- In the middle of an edit nothing is missing, so a refused edit was refused at once. -/
theorem Linked.entry?_of_refused {Answer : Type} {edit : Stage → Stage × Answer} {fault : Fault}
    (linked : effect.Linked)
    (refused : (effect.modifyStageStepwise id edit).answer = .error fault) :
    effect.entry? id = none := by
  rw [linked.modifyStageStepwise_eq] at refused
  cases edited : effect.modifyStage id edit with
  | error other => exact (modifyStage_eq_error_iff.mp edited).1
  | ok outcome =>
      rw [edited] at refused
      cases refused

theorem Linked.attempt_appendOperation (linked : effect.Linked) (id : StageId)
    (operation : Operation) :
    effect.attempt (.appendOperation id operation) = effect.appendOperation id operation := by
  rw [attempt, linked.modifyStageStepwise_eq, appendOperation_eq]
  cases effect.modifyStage id (Stage.tryAppend operation) <;> rfl

/-- Carried out one look-up after the other, an action leaves what it leaves at once. -/
theorem Linked.state_attempt (linked : effect.Linked) (action : Action) :
    (effect.attempt action).state = effect.perform action := by
  cases action with
  | createDataset feed =>
      rw [attempt, Effect.perform]
      cases effect.createDataset feed <;> rfl
  | assign id new? => exact congrArg Reply.state (linked.assignStepwise_eq id new?)
  | modifyStage id edit =>
      rw [attempt, linked.modifyStageStepwise_eq, Effect.perform]
      cases effect.modifyStage id edit <;> rfl
  | appendOperation id operation =>
      exact congrArg Reply.state (linked.attempt_appendOperation id operation)
  | changeSpace id space =>
      rw [attempt, linked.modifyStageStepwise_eq, Effect.perform, changeSpace]
      cases effect.modifyStage id fun stage => ({ stage with space }, ()) <;> rfl
  | _ => rfl

namespace StaleAtMost

theorem refl (effect : Effect) (id : StageId) : effect.StaleAtMost effect id :=
  ⟨.refl effect, rfl, fun _ => rfl, fun _ => Or.inl rfl⟩

/-- An edit may leave the stage as it was, and still make its dataset stale. -/
theorem modifyStage {Answer : Type} {edit : Stage → Stage × Answer} {answer : Answer}
    (edited : effect.modifyStage id edit = .ok (next, answer))
    (keeps : ∀ stage, effect.stage? id = some stage → (edit stage).1 = stage) :
    effect.StaleAtMost next id := by
  have settings := SameSettings.modifyStage edited
  have namesEq := names_modifyStage edited
  obtain ⟨entry, found, _, outcome⟩ := cases_of_modifyStage_ok edited
  have stageEq : (edit entry.stage).1 = entry.stage := by
    apply keeps
    rw [stage?, found, Option.map_some]
  have sameEntry (other : StageId) :
      entry? (effect.modifyEntry id fun other => { other with stage := (edit entry.stage).1 })
        other = effect.entry? other := by
    rw [entry?_modifyEntry]
    · by_cases same : other = id
      · rw [if_pos same, same, found, Option.map_some, stageEq]
      · rw [if_neg same]
    · exact fun _ => rfl
  rcases outcome with ⟨_, rfl⟩ | ⟨name, assigned, rfl⟩
  · exact ⟨settings, namesEq, sameEntry, fun _ => Or.inl rfl⟩
  · refine ⟨settings, namesEq, sameEntry, ?_⟩
    intro place
    rw [isAt_iff_of_datasetOf?_some assigned, modifyDataset, List.getElem?_modify]
    by_cases here : name.index.toNat = place
    · simp only [here, if_true]
      exact Or.inr ⟨trivial, rfl⟩
    · simp only [here, if_false]
      exact Or.inl (Option.map_id_apply)

theorem appendOperation {operation : Operation} {fault : Fault}
    (refused : (effect.appendOperation id operation).answer = .error fault) :
    effect.StaleAtMost (effect.appendOperation id operation).state id := by
  rw [appendOperation_eq] at refused ⊢
  cases edited : effect.modifyStage id (Stage.tryAppend operation) with
  | error other => exact refl effect id
  | ok outcome =>
      obtain ⟨next, answer⟩ := outcome
      obtain ⟨entry, found, answerEq, _⟩ := cases_of_modifyStage_ok edited
      rw [edited] at refused
      dsimp only at refused
      apply modifyStage edited
      intro stage stageEq
      have entryStage : entry.stage = stage := by
        rw [stage?, found] at stageEq
        exact Option.some.inj stageEq
      rw [refused, entryStage, Stage.tryAppend] at answerEq
      rw [Stage.tryAppend]
      cases appended : stage.append operation with
      | ok longer =>
          rw [appended] at answerEq
          cases answerEq
      | error other => rfl

end StaleAtMost

theorem Linked.state_assign_of_refused (linked : effect.Linked) {new? : Option DatasetId}
    (refused : effect.Refuses (.assign id new?)) :
    (effect.attempt (.assign id new?)).state = effect := by
  obtain ⟨fault, answerEq⟩ := refused
  have answerEq : (effect.assignStepwise id new?).answer = .error fault := answerEq
  have stateEq : (effect.attempt (.assign id new?)).state = (effect.assign id new?).state :=
    congrArg Reply.state (linked.assignStepwise_eq id new?)
  rw [linked.assignStepwise_eq] at answerEq
  exact stateEq.trans (state_assign_of_error answerEq)

theorem Linked.entry?_of_refuses {Answer : Type} {edit : Stage → Stage × Answer}
    (linked : effect.Linked) (refused : effect.Refuses (.modifyStage id edit)) :
    effect.entry? id = none := by
  obtain ⟨fault, answerEq⟩ := refused
  have answerEq : (effect.modifyStageStepwise id edit).answer.map (fun _ => ()) = .error fault :=
    answerEq
  cases answered : (effect.modifyStageStepwise id edit).answer with
  | error other => exact linked.entry?_of_refused answered
  | ok answer =>
      rw [answered] at answerEq
      cases answerEq

/-- After any run, a refused action leaves the effect intact.  Datasets are not created and
stages neither assigned nor edited, and an edit that is refused is refused whatever it would
have done.  A refused operation leaves all stages, assignments, owners, tables and plans as
they were, and at most makes the dataset of its stage stale.  A failed analysis changes
nothing but its dataset, which keeps name, kind, owners and plan, has the table that was
collected until then, and does not count as analyzed. -/
theorem refused_leaves_intact (options : AnalysisOptions) (actions : List Action) :
    let effect := (empty options).run actions
    let after (action : Action) : Effect := (effect.attempt action).state
    (∀ feed, effect.Refuses (.createDataset feed) → after (.createDataset feed) = effect)
      ∧ (∀ id new?, effect.Refuses (.assign id new?) → after (.assign id new?) = effect)
      ∧ (∀ id space, effect.Refuses (.changeSpace id space) →
        after (.changeSpace id space) = effect)
      ∧ (∀ (Answer : Type) (id : StageId) (edit : Stage → Stage × Answer),
        effect.Refuses (.modifyStage id edit) →
          ∀ (Other : Type) (other : Stage → Stage × Other),
            effect.modifyStageStepwise id other =
              { state := effect, answer := .error (.unknownStage id) })
      ∧ (∀ id operation, effect.Refuses (.appendOperation id operation) →
        effect.StaleAtMost (after (.appendOperation id operation)) id)
      ∧ (∀ name dataset, effect.dataset? name = some dataset →
        let failed := effect.setDataset name
          { dataset with
            table := (dataset.collect effect.stage? effect.arena effect.options.maxPasses).state
            analyzed := false }
        (effect.Refuses (.analyze name) → after (.analyze name) = failed)
          ∧ (effect.Refuses (.analyzeAnew name) → after (.analyzeAnew name) = failed))
      ∧ ∀ action, after action = effect.perform action := by
  intro effect after
  have linked : effect.Linked := (linked_empty options).run actions
  refine ⟨?_, ?_, ?_, ?_, ?_, ?_, linked.state_attempt⟩
  · rintro feed ⟨fault, refused⟩
    rw [attempt] at refused
    cases created : effect.createDataset feed with
    | error other =>
        dsimp only [after]
        rw [attempt, created]
    | ok outcome =>
        rw [created] at refused
        cases refused
  · exact fun id new? => linked.state_assign_of_refused
  · rintro id space ⟨fault, refused⟩
    exact congrArg Reply.state (modifyStageStepwise_of_missing (linked.entry?_of_refused refused) _)
  · intro Answer id edit refused Other other
    exact modifyStageStepwise_of_missing (linked.entry?_of_refuses refused) other
  · rintro id operation ⟨fault, refused⟩
    rw [linked.attempt_appendOperation] at refused
    dsimp only [after]
    rw [linked.attempt_appendOperation]
    exact .appendOperation refused
  · intro name dataset found failed
    have left (fault : Fault) (refused : (effect.analyzeAnew name).answer = .error fault) :
        (effect.analyzeAnew name).state = failed := analyzeAnew_of_error found refused
    constructor
    · rintro ⟨fault, refused⟩
      obtain ⟨stateEq, carriedOut⟩ := analyze_of_error refused
      exact stateEq.trans (left fault carriedOut)
    · rintro ⟨fault, refused⟩
      have refused : (effect.analyzeAnew name).answer.map (fun _ => ()) = .error fault := refused
      cases answered : (effect.analyzeAnew name).answer with
      | error other => exact left other answered
      | ok effort =>
          rw [answered] at refused
          cases refused

/-- The second stage has got a usage without a mode, at which its analysis stops after the
size has been merged; the plan of the analysis before stays.  An operation that does not fit
makes the first dataset stale. -/
theorem refused_leaves_intact_partway :
    let mover : Stage := { kind := .update, usages := [.always (.readWrite .age)] }
    let grower : Stage := { kind := .update, usages := [.always (.readWrite .size)] }
    let render : Operation := { name := "render", compatible := StageKind.output.mask }
    let actions : List Action :=
      [.createDataset ⟨some .particle⟩, .createDataset ⟨some .particle⟩, .insertStage mover,
        .insertStage grower, .assign ⟨0⟩ (some ⟨0⟩), .assign ⟨1⟩ (some ⟨1⟩), .analyzeStale,
        .modifyStage ⟨1⟩ fun stage =>
          ((stage.declare (.always (.write .alpha))).declare (.always ⟨.color, ∅⟩), ())]
    let effect := (empty {}).run actions
    let table (attr : Attribute) (mode : Mode) (id : StageId) : AccessTable :=
      { rows := [⟨id, attr, mode⟩], slots := [(attr, [0])] }
    let first : Dataset :=
      { id := ⟨0⟩, kind := .particle, owners := [⟨0⟩], table := table .age .readWriteCurrent ⟨0⟩
        plan := ⟨[(.age, .shared 3)]⟩, analyzed := true }
    let second : Dataset :=
      { id := ⟨1⟩, kind := .particle, owners := [⟨1⟩], table := table .size .readWriteCurrent ⟨1⟩
        plan := ⟨[(.size, .shared 3)]⟩ }
    effect.dataset? ⟨0⟩ = some first
      ∧ effect.dataset? ⟨1⟩ = some second
      ∧ effect.Refuses (.createDataset ⟨none⟩)
      ∧ (effect.attempt (.createDataset ⟨none⟩)).state = effect
      ∧ effect.Refuses (.assign ⟨0⟩ (some ⟨7⟩))
      ∧ (effect.attempt (.assign ⟨0⟩ (some ⟨7⟩))).state = effect
      ∧ effect.Refuses (.appendOperation ⟨0⟩ render)
      ∧ effect.StaleAtMost (effect.attempt (.appendOperation ⟨0⟩ render)).state ⟨0⟩
      ∧ effect.Refuses (.analyzeAnew ⟨1⟩)
      ∧ (effect.attempt (.analyzeAnew ⟨1⟩)).state =
        effect.setDataset ⟨1⟩
          { second with
            table :=
              { rows := [⟨⟨1⟩, .size, .readWriteCurrent⟩, ⟨⟨1⟩, .alpha, .writeCurrent⟩]
                slots := [(.size, [0]), (.alpha, [1])] } } := by
  intro mover grower render actions effect table first second
  have firstFound : effect.dataset? ⟨0⟩ = some first := by decide
  have secondFound : effect.dataset? ⟨1⟩ = some second := by decide
  have noFeed : effect.Refuses (.createDataset ⟨none⟩) := ⟨.emptyFeed, by decide⟩
  have noDataset : effect.Refuses (.assign ⟨0⟩ (some ⟨7⟩)) := ⟨.unknownDataset ⟨7⟩, by decide⟩
  have unfit : effect.Refuses (.appendOperation ⟨0⟩ render) :=
    ⟨.incompatibleOperation "render" .update, by decide⟩
  have noMode : effect.Refuses (.analyzeAnew ⟨1⟩) := ⟨.emptyAccess .color ⟨1⟩, by decide⟩
  have intact := refused_leaves_intact {} actions
  refine ⟨firstFound, secondFound, noFeed, intact.1 _ noFeed, noDataset,
    intact.2.1 _ _ noDataset, unfit, intact.2.2.2.2.1 _ _ unfit, noMode, ?_⟩
  apply ((intact.2.2.2.2.2.1 ⟨1⟩ second secondFound).2 noMode).trans
  decide

end Effect

end AttributeFlow
