import AttributeFlow.Proofs.AnalysisFaults
import AttributeFlow.Proofs.StageViews

/-!
# Analyses of owners that look the same

Two analyses of datasets with the same name, kind and owners take the same course if
they see the same of each owner, since nothing that they read of a stage tells more
than the view of it.  Table and answer are then the same, and so is the plan of an
analysis that succeeds.
-/

namespace AttributeFlow

namespace Dataset

variable {dataset other : Dataset} {stages otherStages : StageId → Option Stage}
  {arena otherArena : ExpressionArena}

/-- Analyses of the dataset see the same of each owner. -/
def SameViews (dataset : Dataset) (stages : StageId → Option Stage) (arena : ExpressionArena)
    (otherStages : StageId → Option Stage) (otherArena : ExpressionArena) : Prop :=
  ∀ owner ∈ dataset.owners,
    (stages owner).map (Stage.view arena dataset.kind.device) =
      (otherStages owner).map (Stage.view otherArena dataset.kind.device)

/-- The owners that are found, each with its view. -/
def ownerViews (dataset : Dataset) (stages : StageId → Option Stage) (arena : ExpressionArena) :
    Except Fault (List (StageId × StageView)) :=
  (dataset.ownerStages stages).map
    (List.map (Prod.map (fun id => id) (Stage.view arena dataset.kind.device)))

/-- The declarations in the order of a collection, made up of views alone. -/
def declarationsOfViews (owners : List (StageId × StageView)) : List Declaration :=
  owners.flatMap (fun (id, view) =>
      view.declared.map (⟨id, ·⟩) ++ view.collected.map (⟨id, .always ·⟩))
    ++ owners.flatMap fun (id, view) => view.optional.map (⟨id, ·⟩)

theorem declarations_eq_ofViews :
    dataset.declarations stages arena =
      (dataset.ownerViews stages arena).map declarationsOfViews := by
  rw [declarations, ownerViews]
  cases dataset.ownerStages stages with
  | error fault => rfl
  | ok owners =>
      simp only [Except.map, declarationsOfViews, List.flatMap_map]
      rfl

/-- The same owners are found, or the same one is the first that is missing. -/
theorem ownerViews_congr (same : dataset.SameOwners other)
    (views : dataset.SameViews stages arena otherStages otherArena) :
    dataset.ownerViews stages arena = other.ownerViews otherStages otherArena := by
  rw [ownerViews, ownerViews, ownerStages, ownerStages, ← same.id_eq, ← same.kind_eq,
    ← same.owners_eq]
  rw [SameViews] at views
  generalize dataset.owners = owners at views ⊢
  induction owners with
  | nil => rfl
  | cons owner owners ih =>
      have restEq := ih fun later member => views later (List.mem_cons_of_mem owner member)
      have viewEq := views owner List.mem_cons_self
      rw [List.mapM_cons, List.mapM_cons]
      cases known : stages owner with
      | none =>
          rw [known] at viewEq
          rw [Option.map_eq_none_iff.mp viewEq.symm]
          rfl
      | some stage =>
          rw [known] at viewEq
          obtain ⟨otherStage, otherKnown, sameView⟩ := Option.map_eq_some_iff.mp viewEq.symm
          rw [otherKnown]
          generalize (owners.mapM _ : Except Fault (List (StageId × Stage))) = found at restEq ⊢
          generalize (owners.mapM _ : Except Fault (List (StageId × Stage))) = otherFound
            at restEq ⊢
          cases found with
          | error fault =>
              cases otherFound with
              | error otherFault => exact restEq
              | ok otherOwners => cases restEq
          | ok found =>
              cases otherFound with
              | error otherFault => cases restEq
              | ok otherOwners =>
                  have sameRest := Except.ok.inj restEq
                  exact congrArg Except.ok (congrArg₂ (fun view rest => (owner, view) :: rest)
                    sameView.symm sameRest)

theorem collect_congr_of_views (same : dataset.SameOwners other)
    (views : dataset.SameViews stages arena otherStages otherArena) (maxPasses : Option UInt64) :
    dataset.collect stages arena maxPasses = other.collect otherStages otherArena maxPasses := by
  have declarationsEq : dataset.declarations stages arena =
      other.declarations otherStages otherArena := by
    rw [declarations_eq_ofViews, declarations_eq_ofViews, ownerViews_congr same views]
  rw [collect, collect, declarationsEq, same.id_eq]

theorem SameViews.kind_eq (views : dataset.SameViews stages arena otherStages otherArena)
    {owner : StageId} (isOwner : owner ∈ dataset.owners) :
    (stages owner).map Stage.kind = (otherStages owner).map Stage.kind := by
  have viewEq := congrArg (Option.map StageView.kind) (views owner isOwner)
  rw [Option.map_map, Option.map_map] at viewEq
  exact viewEq

/-- Analyses that see the same give the same answer and the same table, and where they
succeed the same plan. -/
theorem analyze_congr_of_views (same : dataset.SameOwners other)
    (views : dataset.SameViews stages arena otherStages otherArena) (options : AnalysisOptions) :
    let after := dataset.analyze stages arena options
    let otherAfter := other.analyze otherStages otherArena options
    after.answer = otherAfter.answer ∧ after.state.table = otherAfter.state.table
      ∧ ∀ effort, after.answer = .ok effort → after.state.plan = otherAfter.state.plan := by
  intro after otherAfter
  have collectEq : dataset.markStale.collect stages arena options.maxPasses =
      other.markStale.collect otherStages otherArena options.maxPasses :=
    collect_congr_of_views ⟨same.id_eq, same.kind_eq, same.owners_eq⟩ views options.maxPasses
  have answerEq : (dataset.markStale.retable stages arena options).answer =
      (other.markStale.retable otherStages otherArena options).answer :=
    congrArg (fun reply => reply.answer) collectEq
  have tableEq : (dataset.markStale.retable stages arena options).state.table =
      (other.markStale.retable otherStages otherArena options).state.table :=
    congrArg (fun reply => reply.state) collectEq
  cases retabled : (dataset.markStale.retable stages arena options).answer with
  | error fault =>
      obtain ⟨stateEq, failed⟩ := analyze_of_retable_error retabled
      obtain ⟨otherStateEq, otherFailed⟩ := analyze_of_retable_error (answerEq.symm.trans retabled)
      refine ⟨failed.trans otherFailed.symm, ?_, ?_⟩
      · rw [stateEq, otherStateEq, tableEq]
      · intro effort succeeded
        cases failed.symm.trans succeeded
  | ok effort =>
      have otherRetabled := answerEq.symm.trans retabled
      -- Rows belong to owners, so the kinds that the classification asks for are seen.
      have classificationEq :
          (dataset.markStale.retable stages arena options).state.classification stages =
            (other.markStale.retable otherStages otherArena options).state.classification
              otherStages := by
        rw [classification, classification, ← tableEq]
        have ownersEq : (dataset.markStale.retable stages arena options).state.owners =
            (other.markStale.retable otherStages otherArena options).state.owners := same.owners_eq
        rw [← ownersEq]
        apply Classification.ofTable_congr
        intro row member
        exact views.kind_eq (mem_owners_of_collect_ok retabled row member)
      cases planned : ((dataset.markStale.retable stages arena options).state.classification
          stages).plan with
      | error fault =>
          obtain ⟨stateEq, failed⟩ := analyze_of_plan_error retabled planned
          obtain ⟨otherStateEq, otherFailed⟩ :=
            analyze_of_plan_error otherRetabled (classificationEq ▸ planned)
          refine ⟨failed.trans otherFailed.symm, ?_, ?_⟩
          · rw [stateEq, otherStateEq, tableEq]
          · intro effort succeeded
            cases failed.symm.trans succeeded
      | ok plan =>
          obtain ⟨stateEq, succeeded⟩ := analyze_of_plan_ok retabled planned
          obtain ⟨otherStateEq, otherSucceeded⟩ :=
            analyze_of_plan_ok otherRetabled (classificationEq ▸ planned)
          refine ⟨succeeded.trans otherSucceeded.symm, ?_, ?_⟩
          · rw [stateEq, otherStateEq]
            exact tableEq
          · intro _ _
            rw [stateEq, otherStateEq]

end Dataset

namespace Effect

variable {effect other : Effect} {name : DatasetId} {id : StageId} {dataset otherDataset : Dataset}

/-- Analyzing a dataset anew comes to the same in both effects. -/
structure SameAnalysis (effect other : Effect) (name : DatasetId) : Prop where
  answer_eq : (effect.analyzeAnew name).answer = (other.analyzeAnew name).answer
  table_eq : ((effect.analyzeAnew name).state.dataset? name).map Dataset.table =
    ((other.analyzeAnew name).state.dataset? name).map Dataset.table
  plan_eq : ∀ effort, (effect.analyzeAnew name).answer = .ok effort →
    ((effect.analyzeAnew name).state.dataset? name).map Dataset.plan =
      ((other.analyzeAnew name).state.dataset? name).map Dataset.plan

theorem dataset?_analyzeAnew (found : effect.dataset? name = some dataset) :
    (effect.analyzeAnew name).state.dataset? name =
      some (dataset.analyze effect.stage? effect.arena effect.options).state := by
  have placeLt := (List.getElem?_eq_some_iff.mp found).1
  rw [analyzeAnew, dataset_eq_ok_iff.mpr found]
  exact List.getElem?_set_self placeLt

theorem SameAnalysis.of_views (optionsEq : effect.options = other.options)
    (found : effect.dataset? name = some dataset)
    (otherFound : other.dataset? name = some otherDataset) (same : dataset.SameOwners otherDataset)
    (views : dataset.SameViews effect.stage? effect.arena other.stage? other.arena) :
    effect.SameAnalysis other name := by
  obtain ⟨answerEq, tableEq, planEq⟩ :=
    Dataset.analyze_congr_of_views same views effect.options
  rw [← answer_analyzeAnew found] at answerEq planEq
  have otherAnswerEq := answer_analyzeAnew otherFound
  rw [← optionsEq] at otherAnswerEq
  have after := dataset?_analyzeAnew found
  have otherAfter := dataset?_analyzeAnew otherFound
  rw [← optionsEq] at otherAfter
  refine ⟨answerEq.trans otherAnswerEq.symm, ?_, ?_⟩
  · rw [after, otherAfter]
    exact congrArg some tableEq
  · intro effort succeeded
    rw [after, otherAfter]
    exact congrArg some (planEq effort succeeded)

theorem SameAnalysis.of_missing (missing : effect.dataset? name = none)
    (otherMissing : other.dataset? name = none) : effect.SameAnalysis other name := by
  have refused : effect.analyzeAnew name =
      { state := effect, answer := .error (.unknownDataset name) } := by
    rw [analyzeAnew, Effect.dataset, missing]
  have otherRefused : other.analyzeAnew name =
      { state := other, answer := .error (.unknownDataset name) } := by
    rw [analyzeAnew, Effect.dataset, otherMissing]
  refine ⟨?_, ?_, ?_⟩
  · rw [refused, otherRefused]
  · rw [refused, otherRefused, missing, otherMissing]
  · intro effort succeeded
    rw [refused] at succeeded
    cases succeeded

theorem stage?_modifyStage {Answer : Type} (effect : Effect) (id : StageId)
    (edit : Stage → Stage × Answer) (asked : StageId) :
    (effect.perform (.modifyStage id edit)).stage? asked =
      if asked = id then (effect.stage? id).map fun stage => (edit stage).1
      else effect.stage? asked := by
  rw [perform, modifyStage]
  cases found : effect.entry? id with
  | none =>
      by_cases same : asked = id
      · subst same
        simp [stage?, found]
      · simp [same]
  | some entry =>
      have editedStage : (effect.modifyEntry id fun other =>
          { other with stage := (edit entry.stage).1 }).stage? asked =
            if asked = id then (effect.stage? id).map fun stage => (edit stage).1
            else effect.stage? asked := by
        have stageEq : effect.stage? id = some entry.stage := by
          rw [stage?, found, Option.map_some]
        rw [stage?_modifyEntry_of_sets, found, stageEq]
        rfl
      dsimp only
      cases entry.dataset? with
      | none => exact editedStage
      | some assigned => exact editedStage

/-- What an edit makes of the stage does not matter to anything else. -/
theorem modifyStage_elsewhere {Answer OtherAnswer : Type} (effect : Effect) (id : StageId)
    (edit : Stage → Stage × Answer) (otherEdit : Stage → Stage × OtherAnswer) :
    (effect.perform (.modifyStage id edit)).datasets =
        (effect.perform (.modifyStage id otherEdit)).datasets
      ∧ (effect.perform (.modifyStage id edit)).arena =
        (effect.perform (.modifyStage id otherEdit)).arena := by
  simp only [perform, modifyStage]
  cases effect.entry? id with
  | none => exact ⟨rfl, rfl⟩
  | some entry =>
      dsimp only
      cases entry.dataset? with
      | none => exact ⟨rfl, rfl⟩
      | some assigned => exact ⟨rfl, rfl⟩

/-- Two edits of a stage that look the same on every device come to the same for the
analysis of any dataset. -/
theorem sameAnalysis_of_edits {Answer OtherAnswer : Type} {edit : Stage → Stage × Answer}
    {otherEdit : Stage → Stage × OtherAnswer}
    (sameParts : ∀ device stage, Stage.SameParts device (edit stage).1 (otherEdit stage).1)
    (effect : Effect) (id : StageId) (name : DatasetId) :
    (effect.perform (.modifyStage id edit)).SameAnalysis
      (effect.perform (.modifyStage id otherEdit)) name := by
  obtain ⟨datasetsEq, arenaEq⟩ := effect.modifyStage_elsewhere id edit otherEdit
  have optionsEq : (effect.perform (.modifyStage id edit)).options =
      (effect.perform (.modifyStage id otherEdit)).options := by
    rw [options_perform, options_perform]
  have lookUpEq : (effect.perform (.modifyStage id edit)).dataset? name =
      (effect.perform (.modifyStage id otherEdit)).dataset? name := by
    rw [dataset?, datasetsEq, dataset?]
  cases found : (effect.perform (.modifyStage id edit)).dataset? name with
  | none =>
      have otherFound := lookUpEq.symm.trans found
      exact .of_missing found otherFound
  | some dataset =>
      refine .of_views optionsEq found (lookUpEq.symm.trans found) (.refl dataset) ?_
      intro owner _
      rw [stage?_modifyStage, stage?_modifyStage, arenaEq]
      split
      · rw [Option.map_map, Option.map_map]
        congr 1
        funext stage
        exact (sameParts dataset.kind.device stage).view_eq fun _ => rfl
      · rfl

/-- Datasets of one name are named alike after any two runs. -/
theorem Linked.sameOwners (linked : effect.Linked) (otherLinked : other.Linked)
    (found : effect.dataset? name = some dataset)
    (otherFound : other.dataset? name = some otherDataset) (kindEq : dataset.kind = otherDataset.kind)
    (ownersEq : dataset.owners = otherDataset.owners) : dataset.SameOwners otherDataset := by
  refine ⟨?_, kindEq, ownersEq⟩
  have listingFound : effect.listings[name.index.toNat]? = some dataset.listing :=
    (getElem?_listings effect _).trans (congrArg _ found)
  have otherListingFound : other.listings[name.index.toNat]? = some otherDataset.listing :=
    (getElem?_listings other _).trans (congrArg _ otherFound)
  exact (linked.named _ _ listingFound).trans (otherLinked.named _ _ otherListingFound).symm

/-- Two effects in which a dataset has the same kind and the same owners cannot be told
apart by analyzing it if every owner looks the same in both: answer and table are the
same, and so is the plan of an analysis that succeeds.  Without cycles it is enough
that the owners have the same parts and that the expressions agree where values vary.
An explicit operation of any stage may as well be taken out as be disabled. -/
theorem analyzeAnew_sees_only_views (options : AnalysisOptions)
    (actions otherActions : List Action) {name : DatasetId} {dataset otherDataset : Dataset}
    (found : ((empty options).run actions).dataset? name = some dataset)
    (otherFound : ((empty options).run otherActions).dataset? name = some otherDataset)
    (kindEq : dataset.kind = otherDataset.kind) (ownersEq : dataset.owners = otherDataset.owners) :
    let effect := (empty options).run actions
    let other := (empty options).run otherActions
    let device := dataset.kind.device
    ((∀ owner ∈ dataset.owners, ∀ stage otherStage, effect.stage? owner = some stage →
        other.stage? owner = some otherStage →
        stage.view effect.arena device = otherStage.view other.arena device) →
      effect.SameAnalysis other name)
      ∧ (effect.arena.Acyclic → other.arena.Acyclic → effect.arena.SameVarying other.arena →
        (∀ owner ∈ dataset.owners, ∀ stage otherStage, effect.stage? owner = some stage →
          other.stage? owner = some otherStage → Stage.SameParts device stage otherStage) →
        effect.SameAnalysis other name)
      ∧ ∀ id index there,
        (effect.perform (.modifyStage id fun stage => (stage.disableAt index, ()))).SameAnalysis
          (effect.perform (.modifyStage id fun stage => stage.takeAt index)) there := by
  intro effect other device
  have linked : effect.Linked := (linked_empty options).run actions
  have otherLinked : other.Linked := (linked_empty options).run otherActions
  have optionsEq : effect.options = other.options := by
    rw [options_run, options_run]
  have same := linked.sameOwners otherLinked found otherFound kindEq ownersEq
  have looksSame (viewsEq : ∀ owner ∈ dataset.owners, ∀ stage otherStage,
      effect.stage? owner = some stage → other.stage? owner = some otherStage →
      stage.view effect.arena device = otherStage.view other.arena device) :
      effect.SameAnalysis other name := by
    apply SameAnalysis.of_views optionsEq found otherFound same
    intro owner isOwner
    obtain ⟨stage, known⟩ := linked.exists_stage found isOwner
    obtain ⟨otherStage, otherKnown⟩ := otherLinked.exists_stage otherFound (ownersEq ▸ isOwner)
    rw [known, otherKnown]
    exact congrArg some (viewsEq owner isOwner stage otherStage known otherKnown)
  refine ⟨looksSame, ?_, ?_⟩
  · intro acyclic otherAcyclic sameVarying sameParts
    apply looksSame
    intro owner isOwner stage otherStage known otherKnown
    exact (sameParts owner isOwner stage otherStage known otherKnown).view_eq
      (sameVarying.collect_eq acyclic otherAcyclic)
  · intro id index there
    exact sameAnalysis_of_edits
      (fun device stage => stage.sameParts_disableAt_takeAt device index) effect id there

/-- The second effect has a further dataset and stage, a disabled operation, and other
names, labels, spaces and expressions on the other device. -/
theorem analyzeAnew_sees_only_views_drag :
    let stage : Stage :=
      { kind := .update
        usages := [.always (.write .color)]
        expressions := { gpu := [⟨0⟩] }
        operations := [⟨"turbulence", ⟨2⟩, true, [.always (.readWrite .velocity)]⟩] }
    let otherStage : Stage :=
      { kind := .update
        space := .worldSpace
        usages := [.always (.write .color)]
        expressions := { cpu := [⟨1⟩], gpu := [⟨0⟩] }
        operations := [⟨"drag", ⟨2⟩, false, [.always (.write .age)]⟩,
          ⟨"noise", ⟨6⟩, true, [.always (.readWrite .velocity)]⟩] }
    let actions : List Action :=
      [.createDataset ⟨some .particle⟩, .insertStage stage, .assign ⟨0⟩ (some ⟨0⟩),
        .modifyArena fun arena => arena.pushCurrent .color]
    let otherActions : List Action :=
      [.modifyArena fun arena => arena.push ⟨"tint", true, [], [.read .color]⟩,
        .modifyArena fun arena => arena.pushCurrent .alpha,
        .createDataset ⟨some .particle⟩, .createDataset ⟨some .particle⟩, .insertStage otherStage,
        .insertStage stage, .assign ⟨1⟩ (some ⟨1⟩), .assign ⟨0⟩ (some ⟨0⟩)]
    let effect := (empty {}).run actions
    let other := (empty {}).run otherActions
    let dataset : Dataset := { id := ⟨0⟩, kind := .particle, owners := [⟨0⟩] }
    effect.dataset? ⟨0⟩ = some dataset ∧ other.dataset? ⟨0⟩ = some dataset
      ∧ (effect.analyzeAnew ⟨0⟩).answer = .ok ⟨2, 3⟩
      ∧ effect.SameAnalysis other ⟨0⟩
      ∧ (other.perform (.modifyStage ⟨0⟩ fun stage => (stage.disableAt 1, ()))).SameAnalysis
        (other.perform (.modifyStage ⟨0⟩ fun stage => stage.takeAt 1)) ⟨0⟩ := by
  intro stage otherStage actions otherActions effect other dataset
  have found : effect.dataset? ⟨0⟩ = some dataset := by decide
  have otherFound : other.dataset? ⟨0⟩ = some dataset := by decide
  have sameViews : stage.view effect.arena .gpu = otherStage.view other.arena .gpu := by decide
  have stageKnown : effect.stage? ⟨0⟩ = some stage := by decide
  have otherStageKnown : other.stage? ⟨0⟩ = some otherStage := by decide
  have forwards := analyzeAnew_sees_only_views {} actions otherActions found otherFound rfl rfl
  have backwards := analyzeAnew_sees_only_views {} otherActions actions otherFound found rfl rfl
  refine ⟨found, otherFound, by decide, ?_, backwards.2.2 ⟨0⟩ 1 ⟨0⟩⟩
  apply forwards.1
  intro owner isOwner known otherKnown knownEq otherKnownEq
  obtain rfl : owner = ⟨0⟩ := List.mem_singleton.mp isOwner
  cases stageKnown.symm.trans knownEq
  cases otherStageKnown.symm.trans otherKnownEq
  exact sameViews

end Effect

end AttributeFlow
