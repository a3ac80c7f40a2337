import AttributeFlow.Proofs.EffectLinks

/-!
# Ownership over a run

After any run the two records of who owns what agree, names are places, and no
stage has been given a name that another stage was given before.

Moving a stage looks up the dataset that it leaves and the one that it joins, and
editing a stage looks up the dataset that becomes stale.  Carried out one look-up
after the other, with a refusal wherever a dataset is missing, both come to what
they do at once: after the arguments have been checked nothing is missing.
-/

namespace AttributeFlow.Effect

/-- The name that an action gives to a stage, if it adds one. -/
def grantedName? (effect : Effect) : Action → Option StageId
  | .insertStage stage => some (effect.insertStage stage).2
  | _ => none

/-- The names that some actions give to stages, in order. -/
def grantedNames (effect : Effect) : List Action → List StageId
  | [] => []
  | action :: actions =>
      (effect.grantedName? action).toList ++ (effect.perform action).grantedNames actions

variable {effect : Effect} {id : StageId}

/-- All names that are given are different and beyond those given before. -/
theorem nodup_grantedNames {actions : List Action}
    (enoughNames : effect.nextStage.toNat + actions.countP Action.insertsStage < 2 ^ 32) :
    (effect.grantedNames actions).Nodup
      ∧ ∀ name ∈ effect.grantedNames actions, effect.nextStage.toNat ≤ name.index.toNat := by
  induction actions generalizing effect with
  | nil => exact ⟨List.nodup_nil, by simp [grantedNames]⟩
  | cons action actions ih =>
      rw [List.countP_cons] at enoughNames
      cases inserts : action.insertsStage with
      | false =>
          have notGranted : effect.grantedName? action = none := by
            cases action with
            | insertStage stage => cases inserts
            | _ => rfl
          have sameCounter := effect.nextStage_perform inserts
          rw [inserts] at enoughNames
          rw [grantedNames, notGranted, ← sameCounter]
          apply ih
          rw [sameCounter]
          exact enoughNames
      | true =>
          rw [inserts, if_pos rfl] at enoughNames
          cases action with
          | insertStage stage =>
              have counted : (effect.perform (.insertStage stage)).nextStage.toNat =
                  effect.nextStage.toNat + 1 :=
                effect.toNat_nextStage_insertStage stage (by omega)
              obtain ⟨restDistinct, restBeyond⟩ :=
                @ih (effect.perform (.insertStage stage)) (by omega)
              -- The counter does not fall back to a name that it has passed.
              have isNew : (⟨effect.nextStage⟩ : StageId) ∉
                  (effect.perform (.insertStage stage)).grantedNames actions := by
                intro member
                have beyond := restBeyond _ member
                dsimp only at beyond
                omega
              refine ⟨List.nodup_cons.mpr ⟨isNew, restDistinct⟩, ?_⟩
              intro name member
              rcases List.mem_cons.mp member with rfl | later
              · exact Nat.le_refl _
              · have beyond := restBeyond name later
                omega
          | _ => cases inserts

/-- Whether the action asks for a new dataset. -/
def Action.createsDataset : Action → Bool
  | .createDataset _ => true
  | _ => false

theorem length_withdraw (effect : Effect) (id : StageId) :
    (effect.withdraw id).datasets.length = effect.datasets.length := by
  rw [withdraw]
  split
  · rfl
  · exact List.length_modify _ _ _

theorem length_assign (effect : Effect) (id : StageId) (new? : Option DatasetId) :
    (effect.assign id new?).state.datasets.length = effect.datasets.length := by
  have enrolled (withdrawn : Effect) (new : DatasetId) :
      (withdrawn.enroll id new).state.datasets.length = withdrawn.datasets.length := by
    rw [enroll]
    split
    · rfl
    · exact List.length_set
  unfold Effect.assign
  split
  · rfl
  · exact length_withdraw effect id
  · split
    · rfl
    · exact (enrolled _ _).trans (length_withdraw effect id)

theorem SameLinks.length_eq {next : Effect} (same : effect.SameLinks next) :
    next.datasets.length = effect.datasets.length := by
  rw [← length_listings, same.listings_eq, length_listings]

theorem length_perform_le (effect : Effect) (action : Action) :
    (effect.perform action).datasets.length ≤
      effect.datasets.length + if action.createsDataset then 1 else 0 := by
  cases action with
  | createDataset feed =>
      rw [perform]
      split
      · next created =>
          rw [← length_listings, (listings_createDataset created).1, List.length_append,
            length_listings]
          exact Nat.le_refl _
      · exact Nat.le_succ _
  | eraseStage id =>
      exact Nat.le_of_eq ((SameLinks.eraseStage effect id).length_eq.trans (length_withdraw effect id))
  | assign id dataset? => exact Nat.le_of_eq (length_assign effect id dataset?)
  | _ => exact Nat.le_of_eq (effect.sameLinks_perform rfl).length_eq

theorem length_run_le (effect : Effect) (actions : List Action) :
    (effect.run actions).datasets.length ≤
      effect.datasets.length + actions.countP Action.createsDataset := by
  induction actions generalizing effect with
  | nil => exact Nat.le_refl _
  | cons action actions ih =>
      have first := effect.length_perform_le action
      have rest := ih (effect.perform action)
      rw [List.countP_cons]
      exact Nat.le_trans rest (by omega)

/-- Take a stage out of the dataset that its entry names, which must exist.  The
entry is changed first. -/
def leave (effect : Effect) (id : StageId) : Reply Effect (Except Fault Unit) :=
  match effect.datasetOf? id with
  | none => { state := effect, answer := .ok () }
  | some old =>
      let cleared := effect.modifyEntry id fun entry => { entry with dataset? := none }
      match cleared.dataset old with
      | .error fault => { state := cleared, answer := .error fault }
      | .ok dataset =>
          { state := cleared.setDataset old (dataset.dropOwner id).state, answer := .ok () }

/-- Make a stage the last owner of a dataset, which must exist. -/
def join (effect : Effect) (id : StageId) (new : DatasetId) : Reply Effect (Except Fault Unit) :=
  match effect.dataset new with
  | .error fault => { state := effect, answer := .error fault }
  | .ok _ => (effect.enroll id new).mapAnswer .ok

/-- Assign a stage by leaving the old dataset and then joining the new one; each of
them is looked up when its turn comes, and a missing one stops the rest. -/
def assignStepwise (effect : Effect) (id : StageId) (new? : Option DatasetId) :
    Reply Effect (Except Fault Unit) :=
  match effect.entry? id, new? with
  | none, _ => { state := effect, answer := .error (.unknownStage id) }
  | some _, none => effect.leave id
  | some _, some new =>
      match effect.dataset new with
      | .error fault => { state := effect, answer := .error fault }
      | .ok _ =>
          let left := effect.leave id
          match left.answer with
          | .error fault => { left with answer := .error fault }
          | .ok () => left.state.join id new

/-- Edit a stage, and then look up the dataset that becomes stale. -/
def modifyStageStepwise {Answer : Type} (effect : Effect) (id : StageId)
    (edit : Stage → Stage × Answer) : Reply Effect (Except Fault Answer) :=
  match effect.entry? id with
  | none => { state := effect, answer := .error (.unknownStage id) }
  | some entry =>
      let (stage, answer) := edit entry.stage
      let edited := effect.modifyEntry id fun entry => { entry with stage }
      match entry.dataset? with
      | none => { state := edited, answer := .ok answer }
      | some assigned =>
          match edited.dataset assigned with
          | .error fault => { state := edited, answer := .error fault }
          | .ok dataset => { state := edited.setDataset assigned dataset.markStale, answer := .ok answer }

namespace Linked

theorem leave_eq (linked : effect.Linked) (id : StageId) :
    effect.leave id = { state := effect.withdraw id, answer := .ok () } := by
  rw [leave, Effect.withdraw]
  cases assigned : effect.datasetOf? id with
  | none => rfl
  | some old =>
      obtain ⟨dataset, found, _⟩ := linked.exists_dataset assigned
      have clearedFound : (effect.modifyEntry id fun entry => { entry with dataset? := none }).dataset?
          old = some dataset := found
      dsimp only
      rw [dataset_eq_ok_iff.mpr clearedFound]
      dsimp only
      rw [setDataset_eq_modifyDataset clearedFound fun dataset => (dataset.dropOwner id).state]
      rfl

/-- Looking up each dataset when its turn comes, a stage is assigned as it is at once. -/
theorem assignStepwise_eq (linked : effect.Linked) (id : StageId) (new? : Option DatasetId) :
    effect.assignStepwise id new? = effect.assign id new? := by
  unfold assignStepwise Effect.assign
  cases effect.entry? id with
  | none => rfl
  | some entry =>
      cases new? with
      | none => exact linked.leave_eq id
      | some new =>
          dsimp only
          rw [linked.leave_eq id]
          cases found : effect.dataset new with
          | error fault => rfl
          | ok dataset =>
              obtain ⟨placeLt, _⟩ := List.getElem?_eq_some_iff.mp (dataset_eq_ok_iff.mp found)
              rw [← length_withdraw effect id] at placeLt
              have stillFound := dataset_eq_ok_iff.mpr (List.getElem?_eq_getElem placeLt)
              dsimp only
              rw [join, stillFound]

theorem modifyStageStepwise_eq {Answer : Type} (linked : effect.Linked) (id : StageId)
    (edit : Stage → Stage × Answer) :
    effect.modifyStageStepwise id edit =
      match effect.modifyStage id edit with
      | .error fault => { state := effect, answer := .error fault }
      | .ok (next, answer) => { state := next, answer := .ok answer } := by
  rw [modifyStageStepwise, Effect.modifyStage]
  cases entryFound : effect.entry? id with
  | none => rfl
  | some entry =>
      have assignedEq : effect.datasetOf? id = entry.dataset? := by
        rw [datasetOf?, entryFound, Option.bind_some]
      dsimp only
      cases assigned : entry.dataset? with
      | none => rfl
      | some old =>
          obtain ⟨dataset, found, _⟩ := linked.exists_dataset (assignedEq.trans assigned)
          have editedFound : (effect.modifyEntry id fun other =>
              { other with stage := (edit entry.stage).1 }).dataset? old = some dataset := found
          dsimp only
          rw [dataset_eq_ok_iff.mpr editedFound]
          dsimp only
          rw [setDataset_eq_modifyDataset editedFound Dataset.markStale]

end Linked

/-- After any run that adds fewer stages and datasets than there are names, a stage is
assigned to a dataset exactly if it is one of its owners; no dataset lists an owner
twice, no stage owns two datasets, all owners and all stages that are assigned exist,
and every dataset is named by its place.  No name was given to two stages, and the
look-ups in the middle of an assignment or an edit are never what refuses it. -/
theorem assigned_iff_owner (options : AnalysisOptions) (actions : List Action)
    (enoughStageNames : actions.countP Action.insertsStage < 2 ^ 32)
    (enoughDatasetNames : actions.countP Action.createsDataset < 2 ^ 32) :
    let effect := (empty options).run actions
    (∀ id name, effect.datasetOf? id = some name ↔
        ∃ dataset, effect.dataset? name = some dataset ∧ id ∈ dataset.owners)
      ∧ (∀ dataset ∈ effect.datasets, dataset.owners.Nodup)
      ∧ (∀ (place other : Nat) (dataset otherDataset : Dataset) (id : StageId),
        effect.datasets[place]? = some dataset → effect.datasets[other]? = some otherDataset →
        id ∈ dataset.owners → id ∈ otherDataset.owners → place = other)
      ∧ (∀ dataset ∈ effect.datasets, ∀ id ∈ dataset.owners,
        ∃ stage, effect.stage? id = some stage)
      ∧ (∀ id name, effect.datasetOf? id = some name → ∃ stage, effect.stage? id = some stage)
      ∧ (∀ (place : Nat) (dataset : Dataset), effect.datasets[place]? = some dataset →
        dataset.id.index.toNat = place)
      ∧ ((empty options).grantedNames actions).Nodup
      ∧ (∀ id new?, effect.assignStepwise id new? = effect.assign id new?)
      ∧ ∀ (Answer : Type) (id : StageId) (edit : Stage → Stage × Answer),
        effect.modifyStageStepwise id edit =
          match effect.modifyStage id edit with
          | .error fault => { state := effect, answer := .error fault }
          | .ok (next, answer) => { state := next, answer := .ok answer } := by
  intro effect
  have linked : effect.Linked := (linked_empty options).run actions
  have datasetsFit : effect.datasets.length < 2 ^ 32 :=
    Nat.lt_of_le_of_lt (length_run_le (empty options) actions)
      (by simpa [empty] using enoughDatasetNames)
  refine ⟨?_, ?_, ?_, ?_, ?_, ?_, ?_, linked.assignStepwise_eq,
    fun _ => linked.modifyStageStepwise_eq⟩
  · intro id name
    constructor
    · exact linked.exists_dataset
    · rintro ⟨dataset, found, owner⟩
      exact linked.datasetOf?_of_owner found owner
  · intro dataset member
    obtain ⟨place, found⟩ := List.mem_iff_getElem?.mp member
    rw [← ownersAt_of_getElem? found]
    exact linked.distinct place
  · intro place other dataset otherDataset id found otherFound owner otherOwner
    obtain ⟨name, assignedEq, placeEq⟩ := linked.isAt_of_owner found owner
    have otherAt := linked.isAt_of_owner otherFound otherOwner
    rw [isAt_iff_of_datasetOf?_some assignedEq] at otherAt
    exact placeEq.symm.trans otherAt
  · intro dataset member id owner
    obtain ⟨place, found⟩ := List.mem_iff_getElem?.mp member
    exact linked.exists_stage found owner
  · intro id name assignedEq
    obtain ⟨dataset, found, owner⟩ := linked.exists_dataset assignedEq
    exact linked.exists_stage found owner
  · intro place dataset found
    have nameEq : dataset.id = ⟨UInt32.ofNat place⟩ :=
      linked.named place dataset.listing (by rw [getElem?_listings, found]; rfl)
    have placeLt := (List.getElem?_eq_some_iff.mp found).1
    rw [nameEq, UInt32.toNat_ofNat', Nat.mod_eq_of_lt (Nat.lt_trans placeLt datasetsFit)]
  · apply (nodup_grantedNames _).1
    simpa [empty] using enoughStageNames

/-- Stages are moved, erased and added again; the third stage does not get the name of
the second one. -/
theorem assigned_iff_owner_moves :
    let stage : Stage := { kind := .update }
    let actions : List Action :=
      [.createDataset ⟨some .particle⟩, .createDataset ⟨none⟩, .createDataset ⟨some .spawnEvent⟩,
        .insertStage stage, .insertStage stage, .assign ⟨0⟩ (some ⟨0⟩), .assign ⟨1⟩ (some ⟨1⟩),
        .assign ⟨0⟩ (some ⟨1⟩), .assign ⟨0⟩ (some ⟨2⟩), .eraseStage ⟨1⟩, .insertStage stage,
        .assign ⟨2⟩ (some ⟨1⟩), .assign ⟨0⟩ (some ⟨1⟩)]
    let effect := (empty {}).run actions
    actions.countP Action.insertsStage < 2 ^ 32
      ∧ actions.countP Action.createsDataset < 2 ^ 32
      ∧ effect.listings = [(⟨0⟩, []), (⟨1⟩, [⟨2⟩, ⟨0⟩])]
      ∧ (empty {}).grantedNames actions = [⟨0⟩, ⟨1⟩, ⟨2⟩]
      ∧ (effect.datasetOf? ⟨2⟩ = some ⟨1⟩ ↔
        ∃ dataset, effect.dataset? ⟨1⟩ = some dataset ∧ ⟨2⟩ ∈ dataset.owners)
      ∧ effect.assignStepwise ⟨0⟩ (some ⟨0⟩) = effect.assign ⟨0⟩ (some ⟨0⟩) := by
  intro stage actions effect
  have enoughStageNames : actions.countP Action.insertsStage < 2 ^ 32 := by decide
  have enoughDatasetNames : actions.countP Action.createsDataset < 2 ^ 32 := by decide
  have agree := assigned_iff_owner {} actions enoughStageNames enoughDatasetNames
  exact ⟨enoughStageNames, enoughDatasetNames, by decide, by decide, agree.1 ⟨2⟩ ⟨1⟩,
    agree.2.2.2.2.2.2.2.1 ⟨0⟩ (some ⟨0⟩)⟩

end AttributeFlow.Effect
