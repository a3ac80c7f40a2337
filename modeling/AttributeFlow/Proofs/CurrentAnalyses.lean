import AttributeFlow.Proofs.AnalysisViews
import AttributeFlow.Proofs.EffectLinks

/-!
# Analyzed datasets are current

A dataset counts as analyzed only as long as it is what its owners give rise to.
Apart from analyses, every action either makes a dataset stale or leaves it with the
same owners, which are the same stages as before.

There is one exception.  When all names have been given, they are given again from the first
one on.  A stage whose name is still in use is then replaced without further notice, and a
dataset that it owns goes on to count as analyzed.  This cannot happen as long as every stage
that is added gets a name which is not in use, so in no run that adds fewer stages than there
are names.
-/

namespace AttributeFlow.Effect

/-- Every dataset that counts as analyzed is what its owners give rise to. -/
def AnalysesCurrent (effect : Effect) : Prop :=
  ∀ (place : Nat) (dataset : Dataset), effect.datasets[place]? = some dataset →
    dataset.analyzed = true → dataset.IsCurrent effect.stage? effect.arena effect.options

/-- Nothing counts as analyzed unless a pass is allowed. -/
def AnalyzedNeedsPass (effect : Effect) : Prop :=
  ∀ (place : Nat) (dataset : Dataset), effect.datasets[place]? = some dataset →
    dataset.analyzed = true → effect.options.maxPasses ≠ some 0

/-- Every stage that some actions add gets a name that is not in use. -/
def NamesFresh (effect : Effect) : List Action → Prop
  | [] => True
  | action :: actions =>
      (action.insertsStage = true → effect.entry? ⟨effect.nextStage⟩ = none)
        ∧ (effect.perform action).NamesFresh actions

/-- What counts as analyzed in the next effect did so before, and its owners are the same
stages. -/
structure KeepsAnalyzed (effect next : Effect) : Prop where
  arena_eq : next.arena = effect.arena
  options_eq : next.options = effect.options
  found_before : ∀ (place : Nat) (dataset : Dataset), next.datasets[place]? = some dataset →
    dataset.analyzed = true → effect.datasets[place]? = some dataset
  stage?_eq : ∀ (place : Nat) (dataset : Dataset), next.datasets[place]? = some dataset →
    dataset.analyzed = true → ∀ owner ∈ dataset.owners, next.stage? owner = effect.stage? owner

/-- Nothing but datasets has changed, and each of them is as before or as an analysis
leaves it. -/
def AnalyzesSome (effect next : Effect) : Prop :=
  ∃ datasets, next = { effect with datasets }
    ∧ ∀ (place : Nat) (dataset : Dataset), datasets[place]? = some dataset →
      ∃ old, effect.datasets[place]? = some old
        ∧ (dataset = old
          ∨ dataset = (old.analyze effect.stage? effect.arena effect.options).state)

variable {effect next : Effect} {id : StageId} {place : Nat} {dataset : Dataset}

theorem analysesCurrent_empty (options : AnalysisOptions) : (empty options).AnalysesCurrent := by
  simp [AnalysesCurrent, empty]

theorem AnalysesCurrent.of_keeps (current : effect.AnalysesCurrent)
    (keeps : effect.KeepsAnalyzed next) : next.AnalysesCurrent := by
  intro place dataset found analyzed
  have before := keeps.found_before place dataset found analyzed
  rw [keeps.arena_eq, keeps.options_eq]
  apply (current place dataset before analyzed).congr
  intro owner isOwner
  exact (keeps.stage?_eq place dataset found analyzed owner isOwner).symm

/-- Analyzing some of the datasets leaves those current that count as analyzed. -/
theorem AnalysesCurrent.of_analyses (current : effect.AnalysesCurrent)
    (analyzes : effect.AnalyzesSome next) : next.AnalysesCurrent := by
  obtain ⟨datasets, rfl, analyses⟩ := analyzes
  intro place dataset found
  obtain ⟨old, before, rfl | rfl⟩ := analyses place dataset found
  · exact current place dataset before
  · exact (old.analyze_outcome effect.stage? effect.arena effect.options).2

/-- What counts as analyzed after an edit of a stage is not the dataset of the stage, and
did so before. -/
theorem analyzed_of_modifyStage {Answer : Type} {edit : Stage → Stage × Answer} {answer : Answer}
    (edited : effect.modifyStage id edit = .ok (next, answer))
    (found : next.datasets[place]? = some dataset) (analyzed : dataset.analyzed = true) :
    effect.datasets[place]? = some dataset ∧ ¬ effect.IsAt id place := by
  obtain ⟨_, _, _, ⟨unassigned, rfl⟩ | ⟨name, assigned, rfl⟩⟩ := cases_of_modifyStage_ok edited
  · exact ⟨found, not_isAt_of_datasetOf?_none unassigned⟩
  · obtain ⟨old, before, datasetEq⟩ := getElem?_modifyDataset_eq_some found
    by_cases here : name.index.toNat = place
    · rw [if_pos here] at datasetEq
      rw [datasetEq] at analyzed
      cases analyzed
    · rw [if_neg here] at datasetEq
      rw [datasetEq, isAt_iff_of_datasetOf?_some assigned]
      exact ⟨before, here⟩

namespace KeepsAnalyzed

theorem refl (effect : Effect) : effect.KeepsAnalyzed effect :=
  ⟨rfl, rfl, fun _ _ found _ => found, fun _ _ _ _ _ _ => rfl⟩

theorem trans {middle : Effect} (first : effect.KeepsAnalyzed middle)
    (second : middle.KeepsAnalyzed next) : effect.KeepsAnalyzed next where
  arena_eq := second.arena_eq.trans first.arena_eq
  options_eq := second.options_eq.trans first.options_eq
  found_before place dataset found analyzed :=
    first.found_before place dataset (second.found_before place dataset found analyzed) analyzed
  stage?_eq place dataset found analyzed owner isOwner := by
    have between := second.found_before place dataset found analyzed
    rw [second.stage?_eq place dataset found analyzed owner isOwner,
      first.stage?_eq place dataset between analyzed owner isOwner]

/-- A change of one dataset that leaves the dataset either stale or as it was. -/
theorem modifyDataset {name : DatasetId} {change : Dataset → Dataset}
    (staleOrSame : ∀ dataset, (change dataset).analyzed = true → change dataset = dataset) :
    effect.KeepsAnalyzed (effect.modifyDataset name change) := by
  refine ⟨rfl, rfl, ?_, fun _ _ _ _ _ _ => rfl⟩
  intro place dataset found analyzed
  obtain ⟨old, before, datasetEq⟩ := getElem?_modifyDataset_eq_some found
  by_cases here : name.index.toNat = place
  · rw [if_pos here] at datasetEq
    subst datasetEq
    rw [staleOrSame old analyzed]
    exact before
  · rw [if_neg here] at datasetEq
    rw [datasetEq]
    exact before

/-- A change of entries that leaves the stages as they were. -/
theorem modifyEntry {change : StageEntry → StageEntry}
    (keepsName : ∀ entry, (change entry).id = entry.id)
    (keepsStage : ∀ entry, (change entry).stage = entry.stage) :
    effect.KeepsAnalyzed (effect.modifyEntry id change) := by
  refine ⟨rfl, rfl, fun _ _ found _ => found, ?_⟩
  intro _ _ _ _ owner _
  exact stage?_modifyEntry_of_keeps keepsName keepsStage id owner

theorem withdraw (effect : Effect) (id : StageId) : effect.KeepsAnalyzed (effect.withdraw id) := by
  rw [Effect.withdraw]
  cases effect.datasetOf? id with
  | none => exact refl effect
  | some old =>
      refine trans ?_ (modifyEntry (fun _ => rfl) fun _ => rfl)
      apply modifyDataset
      intro dataset
      rw [Dataset.dropOwner]
      split
      · intro impossible
        cases impossible
      · exact fun _ => rfl

theorem enroll (effect : Effect) (id : StageId) (new : DatasetId) :
    effect.KeepsAnalyzed (effect.enroll id new).state := by
  rw [Effect.enroll]
  cases found : effect.dataset? new with
  | none => exact refl effect
  | some dataset =>
      dsimp only
      rw [setDataset_eq_modifyDataset found fun dataset => (dataset.addOwner id).state]
      refine trans ?_ (modifyEntry (fun _ => rfl) fun _ => rfl)
      apply modifyDataset
      intro dataset
      rw [Dataset.addOwner]
      split
      · exact fun _ => rfl
      · intro impossible
        cases impossible

theorem assign (effect : Effect) (id : StageId) (new? : Option DatasetId) :
    effect.KeepsAnalyzed (effect.assign id new?).state := by
  unfold Effect.assign
  split
  · exact refl effect
  · exact withdraw effect id
  · split
    · exact refl effect
    · exact trans (withdraw effect id) (enroll _ id _)

theorem createDataset {feed : Feed} {name : DatasetId}
    (created : effect.createDataset feed = .ok (next, name)) : effect.KeepsAnalyzed next := by
  obtain ⟨kind, rfl⟩ := exists_kind_of_createDataset created
  refine ⟨rfl, rfl, ?_, fun _ _ _ _ _ _ => rfl⟩
  intro place dataset found analyzed
  dsimp only at found
  rw [List.getElem?_append] at found
  split at found
  · exact found
  · rw [List.getElem?_singleton] at found
    split at found
    · cases found
      cases analyzed
    · cases found

/-- A new stage is none of the stages that own a dataset, unless its name is in use. -/
theorem insertStage (linked : effect.Linked) (fresh : effect.entry? ⟨effect.nextStage⟩ = none)
    (stage : Stage) : effect.KeepsAnalyzed (effect.insertStage stage).1 := by
  refine ⟨rfl, rfl, fun _ _ found _ => found, ?_⟩
  intro place dataset found _ owner isOwner
  have before : effect.datasets[place]? = some dataset := found
  obtain ⟨known, knownEq⟩ := linked.exists_stage before isOwner
  have different : owner ≠ ⟨effect.nextStage⟩ := by
    rintro rfl
    rw [stage?, fresh] at knownEq
    cases knownEq
  rw [stage?, entry?_insertStage, if_neg different, stage?]

/-- A stage that is erased owns no dataset any more. -/
theorem eraseStage (linked : effect.Linked) (id : StageId) :
    effect.KeepsAnalyzed (effect.eraseStage id).1 := by
  refine trans (withdraw effect id) ⟨rfl, rfl, fun _ _ found _ => found, ?_⟩
  intro place dataset found _ owner isOwner
  have withdrawnFound : (effect.withdraw id).datasets[place]? = some dataset := found
  have notListed :=
    (linked.withdraw id).not_mem_ownersAt (effect.datasetOf?_withdraw id) place
  rw [ownersAt_of_getElem? withdrawnFound] at notListed
  have different : owner ≠ id := fun same => notListed (same ▸ isOwner)
  rw [stage?, Effect.eraseStage, entry?_filter, if_neg different, stage?]

/-- The dataset of a stage that is edited becomes stale, and the others do not list the
stage. -/
theorem modifyStage {Answer : Type} (linked : effect.Linked) {edit : Stage → Stage × Answer}
    {answer : Answer} (edited : effect.modifyStage id edit = .ok (next, answer)) :
    effect.KeepsAnalyzed next := by
  have performed : effect.perform (.modifyStage id edit) = next := by
    rw [Effect.perform, edited]
  have stageEq (asked : StageId) (different : asked ≠ id) :
      next.stage? asked = effect.stage? asked := by
    rw [← performed, stage?_modifyStage, if_neg different]
  have settings := SameSettings.modifyStage edited
  refine ⟨settings.arena_eq, settings.options_eq,
    fun _ _ found analyzed => (analyzed_of_modifyStage edited found analyzed).1, ?_⟩
  intro place dataset found analyzed owner isOwner
  obtain ⟨before, notAt⟩ := analyzed_of_modifyStage edited found analyzed
  apply stageEq owner
  rintro rfl
  exact notAt (linked.isAt_of_owner before isOwner)

end KeepsAnalyzed

namespace AnalyzesSome

theorem refl (effect : Effect) : effect.AnalyzesSome effect :=
  ⟨effect.datasets, rfl, fun _ dataset found => ⟨dataset, found, Or.inl rfl⟩⟩

theorem analyzeAnew (effect : Effect) (name : DatasetId) :
    effect.AnalyzesSome (effect.analyzeAnew name).state := by
  rw [Effect.analyzeAnew]
  cases found : effect.dataset name with
  | error fault => exact refl effect
  | ok dataset => exact ⟨_, rfl, setDataset_analyze_spec (dataset_eq_ok_iff.mp found)⟩

theorem analyze (effect : Effect) (name : DatasetId) :
    effect.AnalyzesSome (effect.analyze name).state := by
  rw [Effect.analyze]
  split
  · exact refl effect
  · split
    · exact refl effect
    · exact analyzeAnew effect name

theorem analyzeStale (effect : Effect) : effect.AnalyzesSome effect.analyzeStale.state :=
  ⟨_, rfl, analyzeEach_spec effect.stage? effect.arena effect.options effect.datasets⟩

end AnalyzesSome

theorem not_analyzed_modifyArena {Answer : Type}
    {edit : ExpressionArena → ExpressionArena × Answer}
    (found : (effect.modifyArena edit).1.datasets[place]? = some dataset) :
    dataset.analyzed = false := by
  rw [modifyArena, List.getElem?_map, Option.map_eq_some_iff] at found
  obtain ⟨old, _, rfl⟩ := found
  rfl

/-- Unless it adds a stage, an action keeps what counts as analyzed, or makes everything stale,
or analyzes. -/
theorem cases_of_perform (linked : effect.Linked) {action : Action}
    (noStage : action.insertsStage = false) :
    effect.KeepsAnalyzed (effect.perform action)
      ∨ (∀ (place : Nat) (dataset : Dataset),
        (effect.perform action).datasets[place]? = some dataset → dataset.analyzed = false)
      ∨ effect.AnalyzesSome (effect.perform action) := by
  cases action with
  | createDataset feed =>
      left
      rw [perform]
      split
      · next created => exact .createDataset created
      · exact .refl effect
  | insertStage stage => cases noStage
  | eraseStage id => exact .inl (.eraseStage linked id)
  | assign id dataset? => exact .inl (.assign effect id dataset?)
  | modifyStage id edit =>
      left
      rw [perform]
      split
      · next edited => exact .modifyStage linked edited
      · exact .refl effect
  | appendOperation id operation =>
      left
      rw [perform, appendOperation]
      split
      · exact .refl effect
      · next edited => exact .modifyStage linked edited
  | changeSpace id space =>
      left
      rw [perform]
      split
      · next changed => exact .modifyStage linked (modifyStage_of_changeSpace changed)
      · exact .refl effect
  | modifyArena edit => exact .inr (.inl fun _ _ => not_analyzed_modifyArena)
  | analyze id => exact .inr (.inr (.analyze effect id))
  | analyzeAnew id => exact .inr (.inr (.analyzeAnew effect id))
  | analyzeStale => exact .inr (.inr (.analyzeStale effect))

/-- An action leaves those datasets current that count as analyzed after it. -/
theorem AnalysesCurrent.perform (current : effect.AnalysesCurrent) (linked : effect.Linked)
    (action : Action)
    (fresh : action.insertsStage = true → effect.entry? ⟨effect.nextStage⟩ = none) :
    (effect.perform action).AnalysesCurrent := by
  cases inserts : action.insertsStage with
  | true =>
      cases action with
      | insertStage stage => exact current.of_keeps (.insertStage linked (fresh rfl) stage)
      | _ => cases inserts
  | false =>
      rcases cases_of_perform linked inserts with keeps | stale | analyzes
      · exact current.of_keeps keeps
      · intro place dataset found analyzed
        cases (stale place dataset found).symm.trans analyzed
      · exact current.of_analyses analyzes

/-- However an effect was made, what counts as analyzed in it is current, if no stage was
added under a name in use. -/
theorem AnalysesCurrent.run (current : effect.AnalysesCurrent) (linked : effect.Linked)
    {actions : List Action} (fresh : effect.NamesFresh actions) :
    (effect.run actions).AnalysesCurrent := by
  induction actions generalizing effect with
  | nil => exact current
  | cons action actions ih =>
      exact ih (current.perform linked action fresh.1) (linked.perform action) fresh.2

/-- A run that adds fewer stages than there are names gives no name that is in use. -/
theorem Consistent.namesFresh (consistent : effect.Consistent) {actions : List Action}
    (enoughNames : effect.nextStage.toNat + actions.countP Action.insertsStage < 2 ^ 32) :
    effect.NamesFresh actions := by
  induction actions generalizing effect with
  | nil => trivial
  | cons action actions ih =>
      rw [List.countP_cons] at enoughNames
      have counted := effect.nextStage_perform_le action
      refine ⟨fun _ => consistent.entry?_nextStage, ih ?_ (by omega)⟩
      apply consistent.perform
      intro inserts
      rw [if_pos inserts] at enoughNames
      omega

namespace AnalyzedNeedsPass

theorem empty (options : AnalysisOptions) : (Effect.empty options).AnalyzedNeedsPass := by
  simp [AnalyzedNeedsPass, Effect.empty]

/-- What counts as analyzed did so before or has just been collected, in some pass. -/
theorem perform (needsPass : effect.AnalyzedNeedsPass) (linked : effect.Linked)
    (action : Action) : (effect.perform action).AnalyzedNeedsPass := by
  intro place dataset found analyzed
  rw [options_perform]
  cases inserts : action.insertsStage with
  | true =>
      cases action with
      | insertStage stage => exact needsPass place dataset found analyzed
      | _ => cases inserts
  | false =>
      rcases cases_of_perform linked inserts with keeps | stale | ⟨datasets, performed, analyses⟩
      · exact needsPass place dataset (keeps.found_before place dataset found analyzed) analyzed
      · cases (stale place dataset found).symm.trans analyzed
      · rw [performed] at found
        obtain ⟨old, before, rfl | rfl⟩ := analyses place dataset found
        · exact needsPass place dataset before analyzed
        · obtain ⟨_, collected⟩ := ((old.analyze_outcome effect.stage? effect.arena
            effect.options).2 analyzed).collected
          exact (Dataset.declarations_of_collect_ok collected).1

/-- This needs no fresh names, since names are not looked at. -/
theorem run (needsPass : effect.AnalyzedNeedsPass) (linked : effect.Linked)
    (actions : List Action) : (effect.run actions).AnalyzedNeedsPass := by
  induction actions generalizing effect with
  | nil => exact needsPass
  | cons action actions ih => exact ih (needsPass.perform linked action) (linked.perform action)

end AnalyzedNeedsPass

end AttributeFlow.Effect
