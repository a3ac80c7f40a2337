import AttributeFlow.Proofs.OwnershipHistory
import Mathlib.Logic.Function.Conjugate

/-!
# Independent assignments

Assigning a stage changes the datasets in one and the same way: every dataset drops the
stage, and the new one takes it back as its last owner.  At one dataset, dropping a stage
commutes with whatever is done to another stage, and only making both stages last owners
does not.  Two stages that are not assigned to the same dataset may therefore be assigned in
either order, wherever they come from, and so may an assigned and an erased stage.
-/

namespace AttributeFlow

namespace Dataset

variable {first second : StageId}

theorem state_dropOwner (dataset : Dataset) (stage : StageId) :
    (dataset.dropOwner stage).state =
      { dataset with
        owners := dataset.owners.erase stage
        analyzed := dataset.analyzed && !dataset.owners.contains stage } := by
  rw [dropOwner]
  cases owner : dataset.owners.contains stage with
  | false => simp_all [List.erase_of_not_mem]
  | true => simp [markStale]

theorem state_addOwner (dataset : Dataset) (stage : StageId) :
    (dataset.addOwner stage).state =
      { dataset with
        owners := dataset.owners ++ if dataset.owners.contains stage then [] else [stage]
        analyzed := dataset.analyzed && dataset.owners.contains stage } := by
  rw [addOwner]
  cases owner : dataset.owners.contains stage with
  | false => simp [markStale]
  | true => simp

private theorem contains_erase_of_ne (owners : List StageId) (different : first ≠ second) :
    (owners.erase first).contains second = owners.contains second := by
  rw [Bool.eq_iff_iff, List.contains_iff_mem, List.contains_iff_mem,
    List.mem_erase_of_ne different.symm]

theorem dropOwner_dropOwner_comm (different : first ≠ second) :
    Function.Commute (fun dataset => (dropOwner dataset first).state)
      fun dataset => (dropOwner dataset second).state := by
  intro dataset
  simp only [state_dropOwner, contains_erase_of_ne _ different,
    contains_erase_of_ne _ different.symm, List.erase_comm first second, Bool.and_right_comm]

private theorem erase_append_of_not_mem (owners : List StageId) {added : List StageId}
    (notAdded : first ∉ added) : (owners ++ added).erase first = owners.erase first ++ added := by
  rw [List.erase_append]
  split
  · rfl
  next absent => rw [List.erase_of_not_mem absent, List.erase_of_not_mem notAdded]

theorem dropOwner_addOwner_comm (different : first ≠ second) :
    Function.Commute (fun dataset => (dropOwner dataset first).state)
      fun dataset => (addOwner dataset second).state := by
  intro dataset
  have notAdded : first ∉ if dataset.owners.contains second then [] else [second] := by
    split
    · exact List.not_mem_nil
    · simpa using different
  have stillOwner {added : List StageId} (notAdded : first ∉ added) :
      (dataset.owners ++ added).contains first = dataset.owners.contains first := by
    rw [List.contains_append, Bool.eq_false_iff.mpr (mt List.contains_iff_mem.mp notAdded),
      Bool.or_false]
  simp only [state_dropOwner, state_addOwner, contains_erase_of_ne _ different,
    erase_append_of_not_mem _ notAdded, stillOwner notAdded, Bool.and_right_comm]

/-- Take a stage out of the owners, and make it the last one if it is assigned here. -/
def reassign (stage : StageId) (here : Bool) (dataset : Dataset) : Dataset :=
  if here then ((dataset.dropOwner stage).state.addOwner stage).state
  else (dataset.dropOwner stage).state

/-- Reassigning two stages commutes unless both are assigned to the dataset. -/
theorem reassign_comm (different : first ≠ second) {firstHere secondHere : Bool}
    (notBoth : ¬ (firstHere = true ∧ secondHere = true)) :
    Function.Commute (reassign first firstHere) (reassign second secondHere) := by
  have dropDrop := dropOwner_dropOwner_comm different
  cases firstHere with
  | false =>
      cases secondHere with
      | false => exact dropDrop
      | true => exact (dropOwner_addOwner_comm different).comp_right dropDrop
  | true =>
      cases secondHere with
      | false => exact (dropOwner_addOwner_comm different.symm).symm.comp_left dropDrop
      | true => exact absurd ⟨rfl, rfl⟩ notBoth

end Dataset

namespace StageEntry

/-- Change the dataset of one stage. -/
def reassign (stage : StageId) (new? : Option DatasetId) (entry : StageEntry) : StageEntry :=
  if entry.id = stage then { entry with dataset? := new? } else entry

theorem id_reassign (stage : StageId) (new? : Option DatasetId) (entry : StageEntry) :
    (entry.reassign stage new?).id = entry.id := by
  rw [reassign]
  split <;> rfl

theorem reassign_of_ne {stage : StageId} {entry : StageEntry} (different : entry.id ≠ stage)
    (new? : Option DatasetId) : entry.reassign stage new? = entry := by
  rw [reassign, if_neg different]

theorem reassign_reassign (stage : StageId) (old? new? : Option DatasetId) (entry : StageEntry) :
    (entry.reassign stage old?).reassign stage new? = entry.reassign stage new? := by
  unfold reassign
  by_cases same : entry.id = stage
  · simp [same]
  · simp [same]

theorem reassign_comm {first second : StageId} (different : first ≠ second)
    (first? second? : Option DatasetId) :
    Function.Commute (reassign first first?) (reassign second second?) := by
  intro entry
  by_cases isFirst : entry.id = first
  · simp [reassign, isFirst, different]
  · by_cases isSecond : entry.id = second
    · simp [reassign, isSecond, different.symm]
    · simp [reassign, isFirst, isSecond]

end StageEntry

namespace Effect

variable {effect next : Effect} {id other first second : StageId} {new? : Option DatasetId}

/-- Change entries and datasets, each of them by itself. -/
def shift (onEntries : List StageEntry → List StageEntry) (onDataset : Nat → Dataset → Dataset)
    (effect : Effect) : Effect :=
  { effect with
    entries := onEntries effect.entries
    datasets := effect.datasets.mapIdx onDataset }

theorem shift_shift (onEntries next : List StageEntry → List StageEntry)
    (onDataset nextOnDataset : Nat → Dataset → Dataset) (effect : Effect) :
    (effect.shift onEntries onDataset).shift next nextOnDataset =
      effect.shift (next ∘ onEntries) fun place => nextOnDataset place ∘ onDataset place := by
  rw [shift, shift, shift, List.mapIdx_mapIdx]
  rfl

/-- Changes commute if they do on the entries and at every dataset. -/
theorem shift_comm {onEntries otherOnEntries : List StageEntry → List StageEntry}
    {onDataset otherOnDataset : Nat → Dataset → Dataset}
    (entriesComm : Function.Commute onEntries otherOnEntries)
    (datasetComm : ∀ place, Function.Commute (onDataset place) (otherOnDataset place)) :
    Function.Commute (shift onEntries onDataset) (shift otherOnEntries otherOnDataset) := by
  intro effect
  rw [shift_shift, shift_shift]
  congr 1
  · funext entries
    exact entriesComm entries
  · funext place dataset
    exact datasetComm place dataset

/-- Give the entries of a stage a new dataset.  The entries of a stage that has none and
gets none are not touched. -/
def relabel (id : StageId) (old? new? : Option DatasetId) (entries : List StageEntry) :
    List StageEntry :=
  if old? = none ∧ new? = none then entries else entries.map (.reassign id new?)

theorem relabel_comm (different : first ≠ second)
    (firstOld? first? secondOld? second? : Option DatasetId) :
    Function.Commute (relabel first firstOld? first?) (relabel second secondOld? second?) := by
  intro entries
  unfold relabel
  split
  · rfl
  · split
    · rfl
    · rw [List.map_map, List.map_map]
      congr 1
      funext entry
      exact StageEntry.reassign_comm different first? second? entry

theorem relabel_filter_comm (first second : StageId) (old? new? : Option DatasetId) :
    Function.Commute (relabel first old? new?) (List.filter fun entry => entry.id != second) := by
  intro entries
  unfold relabel
  split
  · rfl
  · rw [List.filter_map]
    congr 2
    funext entry
    rw [Function.comp_apply, StageEntry.id_reassign]

/-- Whether a dataset is at a place. -/
def isPlace (name? : Option DatasetId) (place : Nat) : Bool :=
  name?.any (·.index.toNat == place)

theorem not_both_isPlace {first? second? : Option DatasetId}
    (independent : first? = none ∨ first? ≠ second?) (place : Nat) :
    ¬ (isPlace first? place = true ∧ isPlace second? place = true) := by
  rintro ⟨firstHere, secondHere⟩
  obtain ⟨firstName, rfl, firstEq⟩ := (Option.any_eq_true _ _).mp firstHere
  obtain ⟨secondName, rfl, secondEq⟩ := (Option.any_eq_true _ _).mp secondHere
  have placesEq := (beq_iff_eq.mp firstEq).trans (beq_iff_eq.mp secondEq).symm
  have namesEq : firstName = secondName := congrArg DatasetId.mk (UInt32.toNat_inj.mp placesEq)
  rcases independent with isNone | different
  · cases isNone
  · exact different (congrArg some namesEq)

theorem relabel_none_none (id : StageId) (entries : List StageEntry) :
    relabel id none none entries = entries := by
  rw [relabel, if_pos ⟨rfl, rfl⟩]

theorem relabel_of_some (id : StageId) {old? new? : Option DatasetId}
    (isSome : ¬ (old? = none ∧ new? = none)) (entries : List StageEntry) :
    relabel id old? new? entries = entries.map (.reassign id new?) := by
  rw [relabel, if_neg isSome]

/-- A stage that leaves its dataset first gets the new one all the same. -/
theorem map_reassign_relabel (id : StageId) (old? : Option DatasetId) (new : DatasetId)
    (entries : List StageEntry) :
    (relabel id old? none entries).map (.reassign id (some new)) =
      relabel id old? (some new) entries := by
  have isSome : ¬ (old? = none ∧ some new = none) := by simp
  rw [relabel_of_some id isSome]
  cases old? with
  | none => rw [relabel_none_none]
  | some old =>
      rw [relabel_of_some id (by simp), List.map_map]
      congr 1
      funext entry
      exact entry.reassign_reassign id none (some new)

theorem filter_relabel (id : StageId) (old? new? : Option DatasetId) (entries : List StageEntry) :
    ((relabel id old? new? entries).filter fun entry => entry.id != id) =
      entries.filter fun entry => entry.id != id := by
  have commuted := relabel_filter_comm id id old? new? entries
  rw [← commuted, relabel]
  split
  · rfl
  · apply (List.map_congr_left _).trans (List.map_id _)
    intro entry member
    have different : entry.id ≠ id := by simpa using (List.mem_filter.mp member).2
    exact entry.reassign_of_ne different new?

theorem Linked.withdraw_eq_shift (linked : effect.Linked) (id : StageId) :
    effect.withdraw id =
      effect.shift (relabel id (effect.datasetOf? id) none)
        fun _ dataset => (dataset.dropOwner id).state := by
  -- Only the dataset that the stage is assigned to lists it, so dropping it from all datasets
  -- is dropping it from that one.
  have dropped_of_not_owner {place : Nat} {dataset : Dataset}
      (found : effect.datasets[place]? = some dataset) (notAt : ¬ effect.IsAt id place) :
      (dataset.dropOwner id).state = dataset := by
    have notOwner : id ∉ dataset.owners := mt (linked.isAt_of_owner found) notAt
    simp [Dataset.state_dropOwner, List.erase_of_not_mem notOwner, notOwner]
  cases assigned : effect.datasetOf? id with
  | none =>
      have datasetsEq : effect.datasets.mapIdx (fun _ dataset => (dataset.dropOwner id).state) =
          effect.datasets := by
        apply List.mapIdx_eq_iff.mpr
        intro place
        cases found : effect.datasets[place]? with
        | none => rfl
        | some dataset =>
            rw [Option.map_some,
              dropped_of_not_owner found (not_isAt_of_datasetOf?_none assigned)]
      rw [withdraw_of_unassigned assigned, shift, relabel_none_none, datasetsEq]
  | some old =>
      have datasetsEq : effect.datasets.mapIdx (fun _ dataset => (dataset.dropOwner id).state) =
          effect.datasets.modify old.index.toNat fun dataset => (dataset.dropOwner id).state := by
        apply List.mapIdx_eq_iff.mpr
        intro place
        rw [List.getElem?_modify]
        cases found : effect.datasets[place]? with
        | none => rfl
        | some dataset =>
            by_cases here : old.index.toNat = place
            · simp [here]
            · have notAt : ¬ effect.IsAt id place := by
                rw [isAt_iff_of_datasetOf?_some assigned]
                exact here
              simp [here, dropped_of_not_owner found notAt]
      rw [Effect.withdraw, assigned, shift, relabel_of_some id (by simp), datasetsEq]
      rfl

theorem enroll_eq_shift {new : DatasetId} {dataset : Dataset}
    (found : effect.dataset? new = some dataset) (id : StageId) :
    (effect.enroll id new).state =
      effect.shift (List.map (.reassign id (some new))) fun place dataset =>
        if new.index.toNat = place then (dataset.addOwner id).state else dataset := by
  have datasetsEq : (effect.datasets.mapIdx fun place dataset =>
        if new.index.toNat = place then (dataset.addOwner id).state else dataset) =
      effect.datasets.modify new.index.toNat fun dataset => (dataset.addOwner id).state := by
    apply List.mapIdx_eq_iff.mpr
    intro place
    rw [List.getElem?_modify]
    rfl
  rw [enroll, found]
  dsimp only
  rw [setDataset_eq_modifyDataset found fun dataset => (dataset.addOwner id).state, shift,
    datasetsEq]
  rfl

/-- What an accepted assignment does to the entries and to each dataset. -/
theorem Linked.assign_eq_shift (linked : effect.Linked)
    (accepted : (effect.assign id new?).answer = .ok ()) :
    (effect.assign id new?).state =
      effect.shift (relabel id (effect.datasetOf? id) new?)
        fun place => Dataset.reassign id (isPlace new? place) := by
  rcases effect.assign_cases id new? with
    ⟨_, refused, _⟩ | ⟨_, _, ⟨rfl, stateEq⟩ | ⟨new, dataset, rfl, found, stateEq⟩⟩
  · cases accepted.symm.trans refused
  · rw [stateEq, linked.withdraw_eq_shift]
    rfl
  · rw [stateEq, enroll_eq_shift found, linked.withdraw_eq_shift, shift_shift]
    congr 1
    · funext entries
      exact map_reassign_relabel id _ new entries
    · funext place dataset
      by_cases here : new.index.toNat = place
      · simp [Dataset.reassign, isPlace, here]
      · simp [Dataset.reassign, isPlace, here]

/-- What erasing a stage does to the entries and to each dataset. -/
theorem Linked.eraseStage_eq_shift (linked : effect.Linked) (id : StageId) :
    (effect.eraseStage id).1 =
      effect.shift (List.filter fun entry => entry.id != id)
        fun _ => Dataset.reassign id false := by
  rw [eraseStage, linked.withdraw_eq_shift]
  dsimp only [shift]
  rw [filter_relabel]
  rfl

theorem entry?_assign_of_ne (different : other ≠ id) (new? : Option DatasetId) :
    entry? (effect.assign id new?).state other = effect.entry? other := by
  rcases effect.assign_cases id new? with
    ⟨_, _, stateEq⟩ | ⟨_, _, ⟨_, stateEq⟩ | ⟨new, _, _, _, stateEq⟩⟩
  · rw [stateEq]
  · rw [stateEq, entry?_withdraw_of_ne different]
  · rw [stateEq, entry?_enroll_of_ne different, entry?_withdraw_of_ne different]

theorem entry?_eraseStage_of_ne (different : other ≠ id) :
    entry? (effect.eraseStage id).1 other = effect.entry? other := by
  rw [entry?_eraseStage, if_neg different]

/-- Whether an assignment is accepted depends on whether the stage and the dataset exist. -/
theorem answer_assign (effect : Effect) (id : StageId) (new? : Option DatasetId) :
    (effect.assign id new?).answer =
      if (effect.entry? id).isNone then .error (.unknownStage id)
      else match new? with
        | none => .ok ()
        | some new =>
            if new.index.toNat < effect.datasets.length then .ok ()
            else .error (.unknownDataset new) := by
  unfold assign
  cases effect.entry? id with
  | none => rfl
  | some entry =>
      cases new? with
      | none => rfl
      | some new =>
          dsimp only [dataset]
          cases found : effect.dataset? new with
          | none =>
              have beyond := Nat.not_lt.mpr (List.getElem?_eq_none_iff.mp found)
              simp [beyond]
          | some dataset =>
              obtain ⟨placeLt, _⟩ := List.getElem?_eq_some_iff.mp found
              simp [placeLt, Reply.mapAnswer]

theorem answer_assign_congr (entryEq : next.entry? id = effect.entry? id)
    (lengthEq : next.datasets.length = effect.datasets.length) (new? : Option DatasetId) :
    (next.assign id new?).answer = (effect.assign id new?).answer := by
  rw [answer_assign, answer_assign, entryEq, lengthEq]

theorem answer_assign_assign (different : first ≠ second) (first? second? : Option DatasetId) :
    ((effect.assign first first?).state.assign second second?).answer =
      (effect.assign second second?).answer :=
  answer_assign_congr (entry?_assign_of_ne different.symm first?)
    (effect.length_assign first first?) second?

theorem Linked.assign_assign_comm (linked : effect.Linked) (different : first ≠ second)
    {first? second? : Option DatasetId} (independent : first? = none ∨ first? ≠ second?) :
    ((effect.assign first first?).state.assign second second?).state =
      ((effect.assign second second?).state.assign first first?).state := by
  have firstAnswer := effect.answer_assign_assign different.symm second? first?
  have secondAnswer := effect.answer_assign_assign different first? second?
  cases firstDone : (effect.assign first first?).answer with
  | error fault =>
      -- What is refused at first is refused later, too, and changes nothing in either order.
      rw [state_assign_of_error firstDone, state_assign_of_error (firstAnswer.trans firstDone)]
  | ok =>
      cases secondDone : (effect.assign second second?).answer with
      | error fault =>
          rw [state_assign_of_error secondDone,
            state_assign_of_error (secondAnswer.trans secondDone)]
      | ok =>
          have firstOld : (effect.assign second second?).state.datasetOf? first =
              effect.datasetOf? first :=
            datasetOf?_congr (entry?_assign_of_ne different second?)
          have secondOld : (effect.assign first first?).state.datasetOf? second =
              effect.datasetOf? second :=
            datasetOf?_congr (entry?_assign_of_ne different.symm first?)
          rw [(linked.assign first first?).assign_eq_shift (secondAnswer.trans secondDone),
            (linked.assign second second?).assign_eq_shift (firstAnswer.trans firstDone),
            firstOld, secondOld, linked.assign_eq_shift firstDone,
            linked.assign_eq_shift secondDone]
          apply Eq.symm
          apply shift_comm (relabel_comm different _ first? _ second?)
          exact fun place => Dataset.reassign_comm different (not_both_isPlace independent place)

theorem answer_eraseStage_assign (different : first ≠ second) (first? : Option DatasetId) :
    ((effect.eraseStage second).1.assign first first?).answer =
      (effect.assign first first?).answer :=
  answer_assign_congr (entry?_eraseStage_of_ne different)
    ((SameLinks.eraseStage effect second).length_eq.trans (effect.length_withdraw second)) first?

theorem Linked.assign_eraseStage_comm (linked : effect.Linked) (different : first ≠ second)
    (first? : Option DatasetId) :
    ((effect.assign first first?).state.eraseStage second).1 =
      ((effect.eraseStage second).1.assign first first?).state := by
  have firstAnswer := effect.answer_eraseStage_assign different first?
  cases firstDone : (effect.assign first first?).answer with
  | error fault =>
      rw [state_assign_of_error firstDone, state_assign_of_error (firstAnswer.trans firstDone)]
  | ok =>
      have erasedLinked : (effect.eraseStage second).1.Linked :=
        linked.perform (.eraseStage second)
      have firstOld : (effect.eraseStage second).1.datasetOf? first = effect.datasetOf? first :=
        datasetOf?_congr (entry?_eraseStage_of_ne different)
      rw [(linked.assign first first?).eraseStage_eq_shift,
        erasedLinked.assign_eq_shift (firstAnswer.trans firstDone), firstOld,
        linked.assign_eq_shift firstDone, linked.eraseStage_eq_shift]
      apply Eq.symm
      apply shift_comm (relabel_filter_comm first second _ first?)
      exact fun place => Dataset.reassign_comm different (by simp)

/-- After any run, two different stages may be assigned in either order, each to any dataset
or to none, as long as they are not assigned to the same one: each assignment is answered as
it is without the other, and both orders end in the same effect, down to the order of all
owners and to which analyses stand.  A stage may just as well be erased before or after
another one is assigned, whatever dataset the two own or come to own. -/
theorem independent_assignments_commute (options : AnalysisOptions) (actions : List Action)
    {first second : StageId} (different : first ≠ second) :
    let effect := (empty options).run actions
    (∀ first? second? : Option DatasetId, (first? = none ∨ first? ≠ second?) →
      let firstDone := effect.assignStepwise first first?
      let secondDone := effect.assignStepwise second second?
      (secondDone.state.assignStepwise first first?).answer = firstDone.answer
        ∧ (firstDone.state.assignStepwise second second?).answer = secondDone.answer
        ∧ (firstDone.state.assignStepwise second second?).state =
          (secondDone.state.assignStepwise first first?).state)
      ∧ ∀ first? : Option DatasetId,
        let firstDone := effect.assignStepwise first first?
        let (erased, stage?) := effect.eraseStage second
        (erased.assignStepwise first first?).answer = firstDone.answer
          ∧ (firstDone.state.eraseStage second).2 = stage?
          ∧ (firstDone.state.eraseStage second).1 = (erased.assignStepwise first first?).state := by
  intro effect
  have linked : effect.Linked := (linked_empty options).run actions
  constructor
  · intro first? second? independent
    dsimp only
    rw [linked.assignStepwise_eq, linked.assignStepwise_eq,
      (linked.assign first first?).assignStepwise_eq,
      (linked.assign second second?).assignStepwise_eq]
    exact ⟨answer_assign_assign different.symm second? first?,
      answer_assign_assign different first? second?,
      linked.assign_assign_comm different independent⟩
  · intro first?
    have erasedLinked : (effect.eraseStage second).1.Linked :=
      linked.perform (.eraseStage second)
    dsimp only
    rw [linked.assignStepwise_eq, erasedLinked.assignStepwise_eq]
    refine ⟨answer_eraseStage_assign different first?, ?_,
      linked.assign_eraseStage_comm different first?⟩
    have sameEntry : entry? (effect.assign first first?).state second = effect.entry? second :=
      entry?_assign_of_ne different.symm first?
    exact congrArg (Option.map StageEntry.stage) sameEntry

/-- The third stage is assigned in between; the first two then change places, and in the end
the second one is gone. -/
theorem independent_assignments_commute_swap :
    let stage : Stage := { kind := .update }
    let actions : List Action :=
      [.createDataset ⟨some .particle⟩, .createDataset ⟨some .spawnEvent⟩, .insertStage stage,
        .insertStage stage, .insertStage stage, .assign ⟨0⟩ (some ⟨0⟩), .assign ⟨1⟩ (some ⟨1⟩),
        .assign ⟨2⟩ (some ⟨0⟩), .analyzeStale]
    let effect := (empty {}).run actions
    let firstDone := effect.assignStepwise ⟨0⟩ (some ⟨1⟩)
    let secondDone := effect.assignStepwise ⟨1⟩ (some ⟨0⟩)
    (⟨0⟩ : StageId) ≠ ⟨1⟩
      ∧ effect.listings = [(⟨0⟩, [⟨0⟩, ⟨2⟩]), (⟨1⟩, [⟨1⟩])]
      ∧ (firstDone.state.assignStepwise ⟨1⟩ (some ⟨0⟩)).state.listings =
        [(⟨0⟩, [⟨2⟩, ⟨1⟩]), (⟨1⟩, [⟨0⟩])]
      ∧ (firstDone.state.assignStepwise ⟨1⟩ (some ⟨0⟩)).state =
        (secondDone.state.assignStepwise ⟨0⟩ (some ⟨1⟩)).state
      ∧ (firstDone.state.eraseStage ⟨1⟩).1.listings = [(⟨0⟩, [⟨2⟩]), (⟨1⟩, [⟨0⟩])]
      ∧ (firstDone.state.eraseStage ⟨1⟩).1 =
        ((effect.eraseStage ⟨1⟩).1.assignStepwise ⟨0⟩ (some ⟨1⟩)).state := by
  intro stage actions effect firstDone secondDone
  have different : (⟨0⟩ : StageId) ≠ ⟨1⟩ := by decide
  have commute := independent_assignments_commute {} actions different
  refine ⟨different, by decide, by decide, ?_, by decide, ?_⟩
  · exact (commute.1 (some ⟨1⟩) (some ⟨0⟩) (Or.inr (by decide))).2.2
  · exact (commute.2 (some ⟨1⟩)).2.2

end Effect

end AttributeFlow
