import AttributeFlow.Proofs.RefusedActions
import Mathlib.Logic.Function.Basic

/-!
# Stages and assignments in maps of their own

An effect may keep its stages in one map and their assignments in another one.  Every action
then changes the maps and the datasets one after the other, and each look-up may miss what
another one has found: a stage may be assigned without being there, and it may be assigned to
a dataset that does not exist.

Kept in this way, an effect does at each step what it does with one list of entries, and it
gives the same answers.  Hence after any run the maps agree with each other and with the
owners that the datasets list.
-/

namespace AttributeFlow

/-- An effect that keeps its stages apart from their assignments. -/
@[ext]
structure SplitEffect where
  stages : StageId → Option Stage := fun _ => none
  /-- The dataset that a stage is assigned to. -/
  assignments : StageId → Option DatasetId := fun _ => none
  datasets : List Dataset := []
  arena : ExpressionArena := {}
  options : AnalysisOptions := {}
  nextStage : UInt32 := 0

namespace SplitEffect

def empty (options : AnalysisOptions) : SplitEffect :=
  { options }

/-- The dataset of a name, which must exist. -/
def dataset (effect : SplitEffect) (name : DatasetId) : Except Fault Dataset :=
  match effect.datasets[name.index.toNat]? with
  | some dataset => .ok dataset
  | none => .error (.unknownDataset name)

def setDataset (effect : SplitEffect) (name : DatasetId) (dataset : Dataset) : SplitEffect :=
  { effect with datasets := effect.datasets.set name.index.toNat dataset }

def setStage (effect : SplitEffect) (id : StageId) (stage? : Option Stage) : SplitEffect :=
  { effect with stages := Function.update effect.stages id stage? }

def setAssignment (effect : SplitEffect) (id : StageId) (dataset? : Option DatasetId) :
    SplitEffect :=
  { effect with assignments := Function.update effect.assignments id dataset? }

def createDataset (effect : SplitEffect) (feed : Feed) :
    Except Fault (SplitEffect × DatasetId) := do
  let id : DatasetId := ⟨UInt32.ofNat effect.datasets.length⟩
  let dataset ← Dataset.create id feed
  return ({ effect with datasets := effect.datasets ++ [dataset] }, id)

def insertStage (effect : SplitEffect) (stage : Stage) : SplitEffect × StageId :=
  let id : StageId := ⟨effect.nextStage⟩
  let counted := { effect with nextStage := effect.nextStage + 1 }
  (counted.setStage id (some stage), id)

/-- Take out a stage, then its assignment, and then take it from the owners of the dataset
if there is such a dataset. -/
def eraseStage (effect : SplitEffect) (id : StageId) : SplitEffect × Option Stage :=
  match effect.stages id with
  | none => (effect, none)
  | some stage =>
      let erased := effect.setStage id none
      match erased.assignments id with
      | none => (erased, some stage)
      | some old =>
          let left := erased.setAssignment id none
          match left.dataset old with
          | .error _ => (left, some stage)
          | .ok dataset => (left.setDataset old (dataset.dropOwner id).state, some stage)

/-- Take a stage out of its dataset, which must exist. -/
def leave (effect : SplitEffect) (id : StageId) : Reply SplitEffect (Except Fault Unit) :=
  match effect.assignments id with
  | none => { state := effect, answer := .ok () }
  | some old =>
      let left := effect.setAssignment id none
      match left.dataset old with
      | .error fault => { state := left, answer := .error fault }
      | .ok dataset =>
          { state := left.setDataset old (dataset.dropOwner id).state, answer := .ok () }

/-- Make a stage the last owner of a dataset, which must exist, and then assign it. -/
def join (effect : SplitEffect) (id : StageId) (new : DatasetId) :
    Reply SplitEffect (Except Fault Unit) :=
  match effect.dataset new with
  | .error fault => { state := effect, answer := .error fault }
  | .ok dataset =>
      let enrolled := dataset.addOwner id
      { state := (effect.setDataset new enrolled.state).setAssignment id (some new)
        events := enrolled.events
        answer := .ok () }

/-- Assign a stage to a dataset, or to none. -/
def assign (effect : SplitEffect) (id : StageId) (new? : Option DatasetId) :
    Reply SplitEffect (Except Fault Unit) :=
  match effect.stages id, new? with
  | none, _ => { state := effect, answer := .error (.unknownStage id) }
  | some _, none => effect.leave id
  | some _, some new =>
      match effect.dataset new with
      | .error fault => { state := effect, answer := .error fault }
      | .ok _ =>
          let left := effect.leave id
          match left.answer with
          | .error fault => { left with answer := .error fault }
          | .ok () => left.state.join id new

/-- Edit a stage, and then look up the dataset that becomes stale. -/
def modifyStage {Answer : Type} (effect : SplitEffect) (id : StageId)
    (edit : Stage → Stage × Answer) : Reply SplitEffect (Except Fault Answer) :=
  match effect.stages id with
  | none => { state := effect, answer := .error (.unknownStage id) }
  | some stage =>
      let (new, answer) := edit stage
      let edited := effect.setStage id (some new)
      match edited.assignments id with
      | none => { state := edited, answer := .ok answer }
      | some assigned =>
          match edited.dataset assigned with
          | .error fault => { state := edited, answer := .error fault }
          | .ok dataset =>
              { state := edited.setDataset assigned dataset.markStale, answer := .ok answer }

def modifyArena {Answer : Type} (effect : SplitEffect)
    (edit : ExpressionArena → ExpressionArena × Answer) : SplitEffect × Answer :=
  let (arena, answer) := edit effect.arena
  ({ effect with arena, datasets := effect.datasets.map Dataset.markStale }, answer)

def analyzeAnew (effect : SplitEffect) (name : DatasetId) :
    Reply SplitEffect (Except Fault Effort) :=
  match effect.dataset name with
  | .error fault => { state := effect, answer := .error fault }
  | .ok dataset =>
      (dataset.analyze effect.stages effect.arena effect.options).mapState
        (effect.setDataset name)

def analyze (effect : SplitEffect) (name : DatasetId) :
    Reply SplitEffect (Except Fault Unit) :=
  match effect.dataset name with
  | .error fault => { state := effect, answer := .error fault }
  | .ok dataset =>
      if dataset.analyzed then { state := effect, answer := .ok () }
      else (effect.analyzeAnew name).mapAnswer fun answer => answer.map fun _ => ()

def analyzeStale (effect : SplitEffect) : Reply SplitEffect (Except Fault Unit) :=
  (Effect.analyzeEach effect.stages effect.arena effect.options effect.datasets).mapState
    fun datasets => { effect with datasets }

def textReport (effect : SplitEffect) (name : DatasetId) : Except Fault String := do
  let dataset ← effect.dataset name
  return dataset.textReport effect.stages

/-- Carry out an action.  The state is what it leaves behind wherever it stops. -/
def attempt (effect : SplitEffect) : Effect.Action → Reply SplitEffect (Except Fault Unit)
  | .createDataset feed =>
      match effect.createDataset feed with
      | .ok (next, _) => { state := next, answer := .ok () }
      | .error fault => { state := effect, answer := .error fault }
  | .insertStage stage => { state := (effect.insertStage stage).1, answer := .ok () }
  | .eraseStage id => { state := (effect.eraseStage id).1, answer := .ok () }
  | .assign id new? => effect.assign id new?
  | .modifyStage id edit =>
      (effect.modifyStage id edit).mapAnswer fun answer => answer.map fun _ => ()
  | .appendOperation id operation =>
      (effect.modifyStage id (Stage.tryAppend operation)).mapAnswer fun answer =>
        answer.bind fun appended => appended
  | .changeSpace id space => effect.modifyStage id fun stage => ({ stage with space }, ())
  | .modifyArena edit => { state := (effect.modifyArena edit).1, answer := .ok () }
  | .analyze name => effect.analyze name
  | .analyzeAnew name => (effect.analyzeAnew name).mapAnswer fun answer => answer.map fun _ => ()
  | .analyzeStale => effect.analyzeStale

/-- The effect after some actions, whether or not they were refused. -/
def run (effect : SplitEffect) (actions : List Effect.Action) : SplitEffect :=
  actions.foldl (fun effect action => (effect.attempt action).state) effect

variable {effect : SplitEffect} {id : StageId}

theorem setStage_eq_self {stage? : Option Stage} (holds : effect.stages id = stage?) :
    effect.setStage id stage? = effect := by
  rw [setStage, ← holds, Function.update_eq_self]

theorem setAssignment_eq_self {dataset? : Option DatasetId}
    (holds : effect.assignments id = dataset?) : effect.setAssignment id dataset? = effect := by
  rw [setAssignment, ← holds, Function.update_eq_self]

end SplitEffect

namespace Effect

/-- The effect with what its entries hold in two maps. -/
def split (effect : Effect) : SplitEffect where
  stages := effect.stage?
  assignments := effect.datasetOf?
  datasets := effect.datasets
  arena := effect.arena
  options := effect.options
  nextStage := effect.nextStage

variable {effect : Effect} {id : StageId} {entry : StageEntry}

theorem stages_split (found : effect.entry? id = some entry) :
    effect.split.stages id = some entry.stage :=
  congrArg (Option.map StageEntry.stage) found

theorem assignments_split (found : effect.entry? id = some entry) :
    effect.split.assignments id = entry.dataset? :=
  congrArg (Option.bind · StageEntry.dataset?) found

theorem stages_split_of_missing (missing : effect.entry? id = none) :
    effect.split.stages id = none :=
  congrArg (Option.map StageEntry.stage) missing

theorem assignments_split_of_missing (missing : effect.entry? id = none) :
    effect.split.assignments id = none :=
  congrArg (Option.bind · StageEntry.dataset?) missing

theorem dataset_split (effect : Effect) (name : DatasetId) :
    effect.split.dataset name = effect.dataset name :=
  rfl

theorem split_setDataset (effect : Effect) (name : DatasetId) (dataset : Dataset) :
    (effect.setDataset name dataset).split = effect.split.setDataset name dataset :=
  rfl

/-- A new stage is one for the first map only. -/
theorem split_setStage (found : effect.entry? id = some entry) (stage : Stage) :
    (effect.modifyEntry id fun entry => { entry with stage }).split =
      effect.split.setStage id (some stage) := by
  apply SplitEffect.ext
  · funext other
    dsimp only [split, SplitEffect.setStage]
    rw [stage?_modifyEntry_of_sets, found, Function.update_apply]
    rfl
  · funext other
    apply datasetOf?_modifyEntry_of_keeps
    · exact fun _ => rfl
    · exact fun _ => rfl
  all_goals rfl

/-- A new assignment is one for the second map only. -/
theorem split_setAssignment (found : effect.entry? id = some entry)
    (dataset? : Option DatasetId) :
    (effect.modifyEntry id fun entry => { entry with dataset? }).split =
      effect.split.setAssignment id dataset? := by
  apply SplitEffect.ext
  · funext other
    apply stage?_modifyEntry_of_keeps
    · exact fun _ => rfl
    · exact fun _ => rfl
  · funext other
    dsimp only [split, SplitEffect.setAssignment]
    rw [datasetOf?_modifyEntry_of_sets, found, Function.update_apply]
    rfl
  all_goals rfl

theorem createDataset_split (effect : Effect) (feed : Feed) :
    effect.split.createDataset feed =
      (effect.createDataset feed).map fun (next, name) => (next.split, name) := by
  rw [SplitEffect.createDataset, createDataset]
  dsimp only [split]
  cases Dataset.create ⟨UInt32.ofNat effect.datasets.length⟩ feed <;> rfl

/-- A stage that is added replaces the one that has its name, if there is one, and its
assignment stays. -/
theorem insertStage_split (effect : Effect) (stage : Stage) :
    effect.split.insertStage stage =
      ((effect.insertStage stage).1.split, (effect.insertStage stage).2) := by
  apply Prod.ext
  · apply SplitEffect.ext
    · funext other
      dsimp only [split, SplitEffect.insertStage, SplitEffect.setStage]
      rw [stage?, entry?_insertStage, Function.update_apply, stage?]
      split <;> rfl
    · funext other
      exact ((SameLinks.insertStage effect stage).datasetOf?_eq other).symm
    all_goals rfl
  · rfl

theorem split_eraseStage (effect : Effect) (id : StageId) :
    (effect.eraseStage id).1.split =
      { (effect.split.setStage id none).setAssignment id none with
        datasets := (effect.withdraw id).datasets } := by
  have settings := SameSettings.withdraw effect id
  apply SplitEffect.ext
  · funext other
    dsimp only [split, SplitEffect.setStage, SplitEffect.setAssignment]
    rw [stage?, entry?_eraseStage, Function.update_apply, stage?]
    split <;> rfl
  · funext other
    dsimp only [split, SplitEffect.setStage, SplitEffect.setAssignment]
    rw [datasetOf?, entry?_eraseStage, Function.update_apply, datasetOf?]
    split <;> rfl
  · rfl
  · exact settings.arena_eq
  · exact settings.options_eq
  · exact settings.nextStage_eq

/-- A dataset that does not exist is not changed. -/
theorem modifyDataset_eq (effect : Effect) (name : DatasetId) (change : Dataset → Dataset) :
    effect.modifyDataset name change =
      match effect.dataset name with
      | .error _ => effect
      | .ok dataset => effect.setDataset name (change dataset) := by
  cases found : effect.dataset? name with
  | none =>
      have beyond : effect.datasets.length ≤ name.index.toNat := List.getElem?_eq_none_iff.mp found
      rw [Effect.dataset, found, modifyDataset, List.modify_eq_self beyond]
  | some dataset =>
      rw [dataset_eq_ok_iff.mpr found]
      exact (setDataset_eq_modifyDataset found change).symm

theorem eraseStage_split (effect : Effect) (id : StageId) :
    effect.split.eraseStage id =
      ((effect.eraseStage id).1.split, (effect.eraseStage id).2) := by
  rw [split_eraseStage, SplitEffect.eraseStage]
  cases found : effect.entry? id with
  | none =>
      have missing := stages_split_of_missing found
      have unassigned := assignments_split_of_missing found
      rw [missing, withdraw_of_unassigned unassigned, SplitEffect.setStage_eq_self missing,
        SplitEffect.setAssignment_eq_self unassigned]
      exact Prod.ext rfl missing.symm
  | some entry =>
      have stageFound := stages_split found
      have answerEq : (effect.eraseStage id).2 = some entry.stage := stageFound
      have assignedEq : (effect.split.setStage id none).assignments id = effect.datasetOf? id := rfl
      rw [stageFound, answerEq]
      dsimp only
      rw [assignedEq]
      cases assigned : effect.datasetOf? id with
      | none =>
          rw [withdraw_of_unassigned assigned,
            SplitEffect.setAssignment_eq_self (assignedEq.trans assigned)]
          rfl
      | some old =>
          have lookedUp : ((effect.split.setStage id none).setAssignment id none).dataset old =
              effect.dataset old := rfl
          dsimp only
          rw [lookedUp, withdraw, assigned]
          dsimp only
          rw [modifyDataset_eq]
          cases effect.dataset old <;> rfl

theorem leave_split (effect : Effect) (id : StageId) :
    effect.split.leave id = (effect.leave id).mapState split := by
  have assignedEq : effect.split.assignments id = effect.datasetOf? id := rfl
  rw [SplitEffect.leave, leave, assignedEq]
  cases assigned : effect.datasetOf? id with
  | none => rfl
  | some old =>
      obtain ⟨entry, found, _⟩ := Option.bind_eq_some_iff.mp assigned
      dsimp only
      rw [← split_setAssignment found, dataset_split]
      generalize effect.modifyEntry id (fun entry => { entry with dataset? := none }) = cleared
      cases cleared.dataset old <;> rfl

/-- A stage that leaves its dataset is still there. -/
theorem exists_entry_leave (found : effect.entry? id = some entry) :
    ∃ other, entry? (effect.leave id).state id = some other := by
  have cleared : entry? (effect.modifyEntry id fun entry => { entry with dataset? := none }) id =
      some { entry with dataset? := none } := by
    rw [entry?_modifyEntry, if_pos rfl, found, Option.map_some]
    exact fun _ => rfl
  rw [leave]
  cases effect.datasetOf? id with
  | none => exact ⟨entry, found⟩
  | some old =>
      dsimp only
      split
      · exact ⟨_, cleared⟩
      · exact ⟨_, cleared⟩

theorem join_split (found : effect.entry? id = some entry) (new : DatasetId) :
    effect.split.join id new = (effect.join id new).mapState split := by
  rw [SplitEffect.join, join, dataset_split]
  cases looked : effect.dataset new with
  | error fault => rfl
  | ok dataset =>
      have stillFound : entry? (effect.setDataset new (dataset.addOwner id).state) id =
          some entry := found
      dsimp only
      rw [enroll, dataset_eq_ok_iff.mp looked, ← split_setDataset,
        ← split_setAssignment stillFound]
      rfl

theorem assign_split (effect : Effect) (id : StageId) (new? : Option DatasetId) :
    effect.split.assign id new? = (effect.assignStepwise id new?).mapState split := by
  unfold SplitEffect.assign assignStepwise
  cases found : effect.entry? id with
  | none =>
      rw [stages_split_of_missing found]
      rfl
  | some entry =>
      rw [stages_split found]
      cases new? with
      | none => exact effect.leave_split id
      | some new =>
          obtain ⟨other, stillFound⟩ := exists_entry_leave found
          dsimp only
          rw [leave_split, dataset_split]
          cases effect.dataset new with
          | error fault => rfl
          | ok dataset =>
              have joined := join_split stillFound new
              generalize effect.leave id = left at joined
              obtain ⟨state, events, answer⟩ := left
              cases answer with
              | error fault => rfl
              | ok done => exact joined

theorem modifyStage_split {Answer : Type} (effect : Effect) (id : StageId)
    (edit : Stage → Stage × Answer) :
    effect.split.modifyStage id edit = (effect.modifyStageStepwise id edit).mapState split := by
  rw [SplitEffect.modifyStage, modifyStageStepwise]
  cases found : effect.entry? id with
  | none =>
      rw [stages_split_of_missing found]
      rfl
  | some entry =>
      have assignedEq : (effect.split.setStage id (some (edit entry.stage).1)).assignments id =
          entry.dataset? := assignments_split found
      rw [stages_split found]
      dsimp only
      rw [assignedEq, ← split_setStage found]
      generalize effect.modifyEntry id
        (fun other => { other with stage := (edit entry.stage).1 }) = edited
      cases entry.dataset? with
      | none => rfl
      | some assigned =>
          dsimp only
          rw [dataset_split]
          cases edited.dataset assigned <;> rfl

theorem modifyArena_split {Answer : Type} (effect : Effect)
    (edit : ExpressionArena → ExpressionArena × Answer) :
    effect.split.modifyArena edit =
      ((effect.modifyArena edit).1.split, (effect.modifyArena edit).2) :=
  rfl

theorem analyzeAnew_split (effect : Effect) (name : DatasetId) :
    effect.split.analyzeAnew name = (effect.analyzeAnew name).mapState split := by
  rw [SplitEffect.analyzeAnew, analyzeAnew, dataset_split]
  cases effect.dataset name <;> rfl

theorem analyze_split (effect : Effect) (name : DatasetId) :
    effect.split.analyze name = (effect.analyze name).mapState split := by
  rw [SplitEffect.analyze, analyze, dataset_split, analyzeAnew_split]
  cases effect.dataset name with
  | error fault => rfl
  | ok dataset =>
      dsimp only
      split <;> rfl

theorem analyzeStale_split (effect : Effect) :
    effect.split.analyzeStale = effect.analyzeStale.mapState split :=
  rfl

theorem textReport_split (effect : Effect) (name : DatasetId) :
    effect.split.textReport name = effect.textReport name :=
  rfl

/-- An action does to the maps what it does to the entries, look-up for look-up. -/
theorem attempt_split (effect : Effect) (action : Action) :
    effect.split.attempt action = (effect.attempt action).mapState split := by
  cases action with
  | createDataset feed =>
      rw [SplitEffect.attempt, attempt, createDataset_split]
      cases effect.createDataset feed <;> rfl
  | insertStage stage =>
      rw [SplitEffect.attempt, insertStage_split]
      rfl
  | eraseStage id =>
      rw [SplitEffect.attempt, eraseStage_split]
      rfl
  | assign id new? => exact effect.assign_split id new?
  | modifyStage id edit =>
      rw [SplitEffect.attempt, modifyStage_split]
      rfl
  | appendOperation id operation =>
      rw [SplitEffect.attempt, modifyStage_split]
      rfl
  | changeSpace id space => exact effect.modifyStage_split id fun stage => ({ stage with space }, ())
  | modifyArena edit =>
      rw [SplitEffect.attempt, modifyArena_split]
      rfl
  | analyze name => exact effect.analyze_split name
  | analyzeAnew name =>
      rw [SplitEffect.attempt, analyzeAnew_split]
      rfl
  | analyzeStale => exact effect.analyzeStale_split

/-- After the same actions the maps hold what the entries hold. -/
theorem Linked.run_split (linked : effect.Linked) (actions : List Action) :
    effect.split.run actions = (effect.run actions).split := by
  induction actions generalizing effect with
  | nil => rfl
  | cons action actions ih =>
      have stepEq : (effect.split.attempt action).state = (effect.perform action).split := by
        rw [attempt_split, ← linked.state_attempt]
        rfl
      rw [SplitEffect.run, List.foldl_cons, stepEq]
      exact ih (linked.perform action)

end Effect

namespace SplitEffect

/-- After any run the maps are those of the entries, and everything that is done or asked next
gets the answer that it gets from the entries.  A stage is assigned to a dataset exactly if it is one of its owners,
every stage that is assigned exists, and in the middle of an assignment or an edit nothing is
missing. -/
theorem maps_agree (options : AnalysisOptions) (actions : List Effect.Action) :
    let effect := (empty options).run actions
    let entries := (Effect.empty options).run actions
    effect = entries.split
      ∧ (∀ action, effect.attempt action = (entries.attempt action).mapState Effect.split)
      ∧ (∀ stage, (effect.insertStage stage).2 = (entries.insertStage stage).2)
      ∧ (∀ id, (effect.eraseStage id).2 = (entries.eraseStage id).2)
      ∧ (∀ name, effect.textReport name = entries.textReport name)
      ∧ (∀ id name, effect.assignments id = some name ↔
        ∃ dataset, effect.dataset name = .ok dataset ∧ id ∈ dataset.owners)
      ∧ (∀ id name, effect.assignments id = some name → ∃ stage, effect.stages id = some stage)
      ∧ (∀ id, (effect.leave id).answer = .ok ())
      ∧ ∀ (Answer : Type) (id : StageId) (stage : Stage) (edit : Stage → Stage × Answer),
        effect.stages id = some stage → (effect.modifyStage id edit).answer = .ok (edit stage).2 := by
  intro effect entries
  have linked : entries.Linked := (Effect.linked_empty options).run actions
  have splitEq : effect = entries.split := (Effect.linked_empty options).run_split actions
  rw [splitEq]
  refine ⟨rfl, entries.attempt_split, fun stage => congrArg Prod.snd (entries.insertStage_split stage),
    fun id => congrArg Prod.snd (entries.eraseStage_split id), entries.textReport_split,
    ?_, ?_, ?_, ?_⟩
  · intro id name
    constructor
    · intro assigned
      obtain ⟨dataset, found, owner⟩ := linked.exists_dataset assigned
      exact ⟨dataset, Effect.dataset_eq_ok_iff.mpr found, owner⟩
    · rintro ⟨dataset, found, owner⟩
      exact linked.datasetOf?_of_owner (Effect.dataset_eq_ok_iff.mp found) owner
  · intro id name assigned
    obtain ⟨dataset, found, owner⟩ := linked.exists_dataset assigned
    exact linked.exists_stage found owner
  · intro id
    rw [Effect.leave_split, linked.leave_eq]
    rfl
  · intro Answer id stage edit found
    obtain ⟨entry, entryFound, rfl⟩ := Option.map_eq_some_iff.mp found
    rw [Effect.modifyStage_split, linked.modifyStageStepwise_eq]
    cases edited : entries.modifyStage id edit with
    | error fault => cases entryFound.symm.trans (Effect.modifyStage_eq_error_iff.mp edited).1
    | ok outcome =>
        obtain ⟨other, otherFound, answerEq, _⟩ := Effect.cases_of_modifyStage_ok edited
        cases entryFound.symm.trans otherFound
        exact congrArg Except.ok answerEq

end SplitEffect

end AttributeFlow
