import AttributeFlow.Proofs.OwnershipRuns

/-!
# The order of owners

The place of an owner is its place in the keys of shared attributes, and the list of
owners records nothing but a history of assignments: the owners of a dataset are the
stages that exist and were last assigned to it, in the order in which that happened.
What was refused left no trace, and neither did anything that is not an assignment or
the end of a stage.
-/

namespace AttributeFlow.Effect

/-- A stage, and the dataset it was assigned to, if any. -/
abbrev Assignment := StageId × Option DatasetId

namespace Assignment

/-- The assignments of a history that stand: each stage's last one, in the order in which
these were made. -/
def standing : List Assignment → List Assignment
  | [] => []
  | assignment :: later =>
      if later.any (·.1 == assignment.1) then standing later else assignment :: standing later

/-- The stages that are present and were last assigned to a dataset, in order. -/
def owners (history : List Assignment) (present : StageId → Bool) (name : DatasetId) :
    List StageId :=
  ((standing history).filter fun assignment =>
    present assignment.1 && assignment.2 == some name).map Prod.fst

variable {history : List Assignment} {present : StageId → Bool}

/-- A further assignment takes the place of the one before. -/
theorem standing_concat (history : List Assignment) (last : Assignment) :
    standing (history ++ [last]) = (standing history).filter (·.1 != last.1) ++ [last] := by
  induction history with
  | nil => rfl
  | cons assignment later ih =>
      rw [List.cons_append, standing, standing, List.any_append, ih]
      by_cases same : last.1 = assignment.1
      · by_cases again : later.any (·.1 == assignment.1) = true
        · simp [same, again]
        · simp [same, again]
      · by_cases again : later.any (·.1 == assignment.1) = true
        · simp [again]
        · simp [same, again, Ne.symm same]

theorem standing_sublist (history : List Assignment) : (standing history).Sublist history := by
  induction history with
  | nil => exact List.Sublist.slnil
  | cons assignment later ih =>
      rw [standing]
      split
      · exact ih.cons assignment
      · exact ih.cons_cons assignment

/-- An assignment stands if no later one is of the same stage. -/
theorem mem_standing_iff {assignment : Assignment} :
    assignment ∈ standing history ↔
      ∃ before after, history = before ++ assignment :: after
        ∧ ∀ later ∈ after, later.1 ≠ assignment.1 := by
  induction history with
  | nil => simp [standing]
  | cons first rest ih =>
      have first_or_rest : (∃ before after, first :: rest = before ++ assignment :: after
          ∧ ∀ later ∈ after, later.1 ≠ assignment.1) ↔
            (first = assignment ∧ ∀ later ∈ rest, later.1 ≠ first.1)
              ∨ assignment ∈ standing rest := by
        rw [ih]
        constructor
        · rintro ⟨before, after, listEq, isLast⟩
          cases before with
          | nil =>
              obtain ⟨rfl, rfl⟩ := List.cons.inj listEq
              exact Or.inl ⟨rfl, isLast⟩
          | cons _ before => exact Or.inr ⟨before, after, (List.cons.inj listEq).2, isLast⟩
        · rintro (⟨rfl, isLast⟩ | ⟨before, after, rfl, isLast⟩)
          · exact ⟨[], rest, rfl, isLast⟩
          · exact ⟨first :: before, after, rfl, isLast⟩
      rw [first_or_rest, standing]
      have isLast_iff : (∀ later ∈ rest, later.1 ≠ first.1) ↔
          ¬ rest.any (·.1 == first.1) = true := by
        simp only [List.any_eq_true, beq_iff_eq, not_exists, not_and, ne_eq]
      rw [isLast_iff]
      by_cases again : rest.any (·.1 == first.1) = true
      · rw [if_pos again, or_iff_right fun isFirst => isFirst.2 again]
      · rw [if_neg again, List.mem_cons, and_iff_left again, eq_comm]

theorem mem_owners_iff {id : StageId} {name : DatasetId} :
    id ∈ owners history present name ↔ present id = true ∧ (id, some name) ∈ standing history := by
  simp [owners, and_comm]

theorem owners_concat (history : List Assignment) {id : StageId} (isPresent : present id = true)
    (new? : Option DatasetId) (name : DatasetId) :
    owners (history ++ [(id, new?)]) present name =
      (owners history present name).filter (· != id) ++ if new? = some name then [id] else [] := by
  rw [owners, standing_concat, List.filter_append, List.map_append, owners, List.filter_map,
    List.filter_filter, List.filter_filter]
  congr 1
  · congr 1
    apply List.filter_congr
    intro assignment _
    exact Bool.and_comm _ _
  · by_cases assigned : new? = some name
    · simp [isPresent, assigned]
    · simp [assigned]

/-- A stage that is no longer present is no longer an owner. -/
theorem owners_erase (history : List Assignment) (id : StageId) (name : DatasetId) :
    owners history (fun other => present other && other != id) name =
      (owners history present name).filter (· != id) := by
  rw [owners, owners, List.filter_map, List.filter_filter]
  congr 1
  apply List.filter_congr
  intro assignment _
  rw [Bool.and_right_comm, Bool.and_comm]
  rfl

/-- Only stages in the history matter. -/
theorem owners_congr {otherPresent : StageId → Bool}
    (agree : ∀ assignment ∈ history, present assignment.1 = otherPresent assignment.1)
    (name : DatasetId) : owners history present name = owners history otherPresent name := by
  rw [owners, owners]
  congr 1
  apply List.filter_congr
  intro assignment member
  rw [agree assignment ((standing_sublist history).subset member)]

end Assignment

variable {effect next : Effect} {id : StageId} {new? : Option DatasetId} {name : DatasetId}
  {history : List Assignment}

/-- The assignment that an action makes, if it is one and is not refused. -/
def assignment? (effect : Effect) : Action → Option Assignment
  | .assign id new? =>
      match (effect.assign id new?).answer with
      | .ok () => some (id, new?)
      | .error _ => none
  | _ => none

/-- The assignments that some actions make, in order. -/
def assignments (effect : Effect) : List Action → List Assignment
  | [] => []
  | action :: actions =>
      (effect.assignment? action).toList ++ (effect.perform action).assignments actions

/-- The owners of a dataset, none if it does not exist. -/
def ownersOf (effect : Effect) (name : DatasetId) : List StageId :=
  (effect.dataset? name).elim [] Dataset.owners

def hasStage (effect : Effect) (id : StageId) : Bool :=
  (effect.stage? id).isSome

/-- Whether the action assigns a stage. -/
def Action.isAssignment : Action → Bool
  | .assign _ _ => true
  | _ => false

/-- Whether the action erases a stage. -/
def Action.erasesStage : Action → Bool
  | .eraseStage _ => true
  | _ => false

theorem assignment?_eq_none {action : Action} (notAssigned : action.isAssignment = false) :
    effect.assignment? action = none := by
  cases action with
  | assign id new? => cases notAssigned
  | _ => rfl

theorem ownersOf_eq_ownersAt (effect : Effect) (name : DatasetId) :
    effect.ownersOf name = effect.ownersAt name.index.toNat := by
  rw [ownersOf, ownersAt, getElem?_listings, dataset?]
  cases effect.datasets[name.index.toNat]? with
  | none => rfl
  | some dataset => rfl

/-- The names of the stages that exist. -/
def names (effect : Effect) : List StageId :=
  effect.entries.map StageEntry.id

theorem hasStage_iff : effect.hasStage id = true ↔ id ∈ effect.names := by
  rw [hasStage, stage?, entry?, Option.isSome_map, List.find?_isSome, names, List.mem_map]
  simp

theorem hasStage_eq_of_names (namesEq : next.names = effect.names) :
    next.hasStage = effect.hasStage := by
  funext id
  rw [Bool.eq_iff_iff, hasStage_iff, hasStage_iff, namesEq]

theorem names_modifyEntry {change : StageEntry → StageEntry}
    (keepsName : ∀ entry, (change entry).id = entry.id) :
    (effect.modifyEntry id change).names = effect.names := by
  rw [names, modifyEntry, List.map_map, names]
  apply List.map_congr_left
  intro entry _
  rw [Function.comp_apply]
  split
  · exact keepsName entry
  · rfl

theorem names_withdraw (effect : Effect) (id : StageId) :
    (effect.withdraw id).names = effect.names := by
  rw [withdraw]
  split
  · rfl
  · apply names_modifyEntry
    exact fun _ => rfl

theorem names_enroll (effect : Effect) (id : StageId) (new : DatasetId) :
    (effect.enroll id new).state.names = effect.names := by
  rw [enroll]
  split
  · rfl
  · apply names_modifyEntry
    exact fun _ => rfl

theorem names_modifyStage {Answer : Type} {edit : Stage → Stage × Answer} {answer : Answer}
    (edited : effect.modifyStage id edit = .ok (next, answer)) : next.names = effect.names := by
  obtain ⟨_, _, _, ⟨_, rfl⟩ | ⟨_, _, rfl⟩⟩ := cases_of_modifyStage_ok edited
  · apply names_modifyEntry
    exact fun _ => rfl
  · apply names_modifyEntry
    exact fun _ => rfl

/-- An assignment is refused, and then changes nothing, or it takes a stage that exists
out of its dataset and puts it at the end of the new one, if there is one. -/
theorem assign_cases (effect : Effect) (id : StageId) (new? : Option DatasetId) :
    (∃ fault, (effect.assign id new?).answer = .error fault
        ∧ (effect.assign id new?).state = effect)
      ∨ (effect.assign id new?).answer = .ok () ∧ effect.hasStage id = true
        ∧ ((new? = none ∧ (effect.assign id new?).state = effect.withdraw id)
          ∨ ∃ new dataset, new? = some new ∧ (effect.withdraw id).dataset? new = some dataset
            ∧ (effect.assign id new?).state = ((effect.withdraw id).enroll id new).state) := by
  unfold assign
  cases found : effect.entry? id with
  | none => exact Or.inl ⟨_, rfl, rfl⟩
  | some entry =>
      have present : effect.hasStage id = true := by
        rw [hasStage, stage?, found]
        rfl
      cases new? with
      | none => exact Or.inr ⟨rfl, present, Or.inl ⟨rfl, rfl⟩⟩
      | some new =>
          dsimp only
          cases known : effect.dataset new with
          | error fault => exact Or.inl ⟨fault, rfl, rfl⟩
          | ok dataset =>
              obtain ⟨placeLt, _⟩ := List.getElem?_eq_some_iff.mp (dataset_eq_ok_iff.mp known)
              rw [← length_withdraw effect id] at placeLt
              exact Or.inr ⟨rfl, present, Or.inr ⟨new, _, rfl, List.getElem?_eq_getElem placeLt, rfl⟩⟩

/-- A refused assignment changes nothing. -/
theorem state_assign_of_error {fault : Fault}
    (refused : (effect.assign id new?).answer = .error fault) :
    (effect.assign id new?).state = effect := by
  rcases effect.assign_cases id new? with ⟨_, _, unchanged⟩ | ⟨accepted, _⟩
  · exact unchanged
  · cases accepted.symm.trans refused

theorem names_assign (effect : Effect) (id : StageId) (new? : Option DatasetId) :
    (effect.assign id new?).state.names = effect.names := by
  rcases effect.assign_cases id new? with
    ⟨_, _, stateEq⟩ | ⟨_, _, ⟨_, stateEq⟩ | ⟨new, _, _, _, stateEq⟩⟩
  · rw [stateEq]
  · rw [stateEq, names_withdraw]
  · rw [stateEq, names_enroll, names_withdraw]

theorem Linked.nodup_ownersOf (linked : effect.Linked) (name : DatasetId) :
    (effect.ownersOf name).Nodup := by
  rw [ownersOf_eq_ownersAt]
  exact linked.distinct name.index.toNat

/-- An assignment that is not refused makes the stage the last owner of the new dataset
and an owner of no other. -/
theorem Linked.ownersOf_assign (linked : effect.Linked)
    (accepted : (effect.assign id new?).answer = .ok ()) (name : DatasetId) :
    (effect.assign id new?).state.ownersOf name =
      (effect.ownersOf name).erase id ++ if new? = some name then [id] else [] := by
  rw [ownersOf_eq_ownersAt, ownersOf_eq_ownersAt]
  rcases effect.assign_cases id new? with
    ⟨fault, refused, _⟩ | ⟨_, _, ⟨rfl, stateEq⟩ | ⟨new, dataset, rfl, found, stateEq⟩⟩
  · cases accepted.symm.trans refused
  · rw [stateEq, linked.ownersAt_withdraw, if_neg (by simp), List.append_nil]
  · have unassigned := effect.datasetOf?_withdraw id
    rw [stateEq, (linked.withdraw id).ownersAt_enroll unassigned found, linked.ownersAt_withdraw]
    congr 1
    have samePlace : new.index.toNat = name.index.toNat ↔ some new = some name := by
      obtain ⟨newIndex⟩ := new
      obtain ⟨index⟩ := name
      simp [UInt32.toNat_inj]
    simp only [samePlace]

/-- Only adding and erasing stages changes which stages exist. -/
theorem names_perform (effect : Effect) {action : Action} (noStage : action.insertsStage = false)
    (notErased : action.erasesStage = false) : (effect.perform action).names = effect.names := by
  cases action with
  | createDataset feed =>
      rw [perform]
      split
      · next created =>
          obtain ⟨kind, rfl⟩ := exists_kind_of_createDataset created
          rfl
      · rfl
  | insertStage stage => cases noStage
  | eraseStage id => cases notErased
  | assign id new? => exact names_assign effect id new?
  | modifyStage id edit =>
      rw [perform]
      split
      · next edited => exact names_modifyStage edited
      · rfl
  | appendOperation id operation =>
      rw [perform, appendOperation]
      split
      · rfl
      · next edited => exact names_modifyStage edited
  | changeSpace id space =>
      rw [perform]
      split
      · next changed => exact names_modifyStage (modifyStage_of_changeSpace changed)
      · rfl
  | modifyArena edit => rfl
  | analyze id =>
      rw [perform, analyze]
      split
      · rfl
      · split
        · rfl
        · rw [analyzeAnew]
          split
          · rfl
          · rfl
  | analyzeAnew id =>
      rw [perform, analyzeAnew]
      split
      · rfl
      · rfl
  | analyzeStale => rfl

theorem SameLinks.ownersOf_eq (same : effect.SameLinks next) (name : DatasetId) :
    next.ownersOf name = effect.ownersOf name := by
  rw [ownersOf_eq_ownersAt, ownersOf_eq_ownersAt, ownersAt, same.listings_eq, ownersAt]

/-- Only assigning and erasing stages changes owners. -/
theorem ownersOf_perform (effect : Effect) {action : Action}
    (notAssigned : action.isAssignment = false) (notErased : action.erasesStage = false)
    (name : DatasetId) : (effect.perform action).ownersOf name = effect.ownersOf name := by
  cases action with
  | createDataset feed =>
      rw [perform]
      split
      · next created =>
          rw [ownersOf_eq_ownersAt, ownersOf_eq_ownersAt, ownersAt_createDataset created]
      · rfl
  | eraseStage id => cases notErased
  | assign id new? => cases notAssigned
  | _ => exact (effect.sameLinks_perform rfl).ownersOf_eq name

/-- The owners of all datasets are those that a history of assignments gives. -/
structure Records (effect : Effect) (history : List Assignment) : Prop where
  linked : effect.Linked
  consistent : effect.Consistent
  /-- Stages that are added later have not been assigned before. -/
  assignedTaken : ∀ assignment ∈ history, assignment.1.index.toNat < effect.nextStage.toNat
  ownersOf_eq : ∀ name, effect.ownersOf name = Assignment.owners history effect.hasStage name

namespace Records

theorem empty (options : AnalysisOptions) : (Effect.empty options).Records [] where
  linked := linked_empty options
  consistent := consistent_empty options
  assignedTaken := by simp
  ownersOf_eq := by simp [ownersOf, dataset?, Effect.empty, Assignment.owners, Assignment.standing]

theorem insertStage (records : effect.Records history) (stage : Stage)
    (remains : effect.nextStage.toNat + 1 < 2 ^ 32) :
    (effect.insertStage stage).1.Records history := by
  have counted := effect.toNat_nextStage_insertStage stage remains
  refine ⟨records.linked.congr (.insertStage effect stage),
    records.consistent.insertStage stage remains, ?_, ?_⟩
  · intro assignment member
    rw [counted]
    exact Nat.lt_succ_of_lt (records.assignedTaken assignment member)
  · intro name
    rw [(SameLinks.insertStage effect stage).ownersOf_eq, records.ownersOf_eq]
    apply Assignment.owners_congr
    intro assignment member
    -- The new stage does not occur in the history.
    have different : (⟨effect.nextStage⟩ : StageId) ≠ assignment.1 := by
      intro same
      have taken := records.assignedTaken assignment member
      rw [← same] at taken
      exact Nat.lt_irrefl _ taken
    rw [hasStage, hasStage, stage?, stage?, entry?_insertStage, if_neg different.symm]

theorem eraseStage (records : effect.Records history) (id : StageId) :
    (effect.eraseStage id).1.Records history := by
  refine ⟨(records.linked.withdraw id).congr (.eraseStage effect id),
    records.consistent.eraseStage id, ?_, ?_⟩
  · have sameCounter : (effect.perform (.eraseStage id)).nextStage = effect.nextStage :=
      effect.nextStage_perform rfl
    rw [perform] at sameCounter
    rw [sameCounter]
    exact records.assignedTaken
  · intro name
    have distinct := records.linked.nodup_ownersOf name
    have present : (effect.eraseStage id).1.hasStage =
        fun other => effect.hasStage other && other != id := by
      funext other
      rw [Bool.eq_iff_iff, hasStage_iff, Bool.and_eq_true, hasStage_iff, ← names_withdraw effect id]
      simp only [names, Effect.eraseStage, List.mem_map, List.mem_filter]
      constructor
      · rintro ⟨entry, ⟨member, different⟩, rfl⟩
        exact ⟨⟨entry, member, rfl⟩, different⟩
      · rintro ⟨⟨entry, member, rfl⟩, different⟩
        exact ⟨entry, ⟨member, different⟩, rfl⟩
    rw [(SameLinks.eraseStage effect id).ownersOf_eq, ownersOf_eq_ownersAt,
      records.linked.ownersAt_withdraw, ← ownersOf_eq_ownersAt, distinct.erase_eq_filter,
      records.ownersOf_eq, present, Assignment.owners_erase]

theorem assign (records : effect.Records history) (id : StageId) (new? : Option DatasetId) :
    (effect.assign id new?).state.Records
      (history ++ (effect.assignment? (.assign id new?)).toList) := by
  have linked := records.linked.assign id new?
  have consistent := records.consistent.assign id new?
  have sameCounter : (effect.perform (.assign id new?)).nextStage = effect.nextStage :=
    effect.nextStage_perform rfl
  rw [perform] at sameCounter
  have sameStages := hasStage_eq_of_names (names_assign effect id new?)
  rcases effect.assign_cases id new? with ⟨fault, refused, stateEq⟩ | ⟨accepted, present, _⟩
  · rw [assignment?, refused, stateEq]
    simpa using records
  · rw [assignment?, accepted]
    refine ⟨linked, consistent, ?_, ?_⟩
    · intro assignment member
      rw [sameCounter]
      rcases List.mem_append.mp member with before | last
      · exact records.assignedTaken assignment before
      · obtain rfl : assignment = (id, new?) := List.mem_singleton.mp last
        obtain ⟨stage, known⟩ := Option.isSome_iff_exists.mp present
        obtain ⟨entry, found, _⟩ := Option.map_eq_some_iff.mp known
        exact records.consistent.namesTaken id entry found
    · intro name
      rw [sameStages, records.linked.ownersOf_assign accepted]
      have distinct := records.linked.nodup_ownersOf name
      rw [distinct.erase_eq_filter, records.ownersOf_eq]
      exact (Assignment.owners_concat history present new? name).symm

/-- An action leads from owners by history to owners by a history that holds the
assignment as well, if the action makes one. -/
theorem perform (records : effect.Records history) (action : Action)
    (remains : action.insertsStage = true → effect.nextStage.toNat + 1 < 2 ^ 32) :
    (effect.perform action).Records (history ++ (effect.assignment? action).toList) := by
  have keeps (noStage : action.insertsStage = false) (notErased : action.erasesStage = false)
      (notAssigned : action.isAssignment = false) : (effect.perform action).Records history := by
    refine ⟨records.linked.perform action, records.consistent.perform action remains, ?_, ?_⟩
    · rw [effect.nextStage_perform noStage]
      exact records.assignedTaken
    · intro name
      rw [effect.ownersOf_perform notAssigned notErased, records.ownersOf_eq,
        hasStage_eq_of_names (effect.names_perform noStage notErased)]
  cases action with
  | assign id new? => exact records.assign id new?
  | insertStage stage =>
      rw [assignment?_eq_none rfl, Option.toList_none, List.append_nil]
      exact records.insertStage stage (remains rfl)
  | eraseStage id =>
      rw [assignment?_eq_none rfl, Option.toList_none, List.append_nil]
      exact records.eraseStage id
  | _ =>
      rw [assignment?_eq_none rfl, Option.toList_none, List.append_nil]
      exact keeps rfl rfl rfl

theorem run (records : effect.Records history) {actions : List Action}
    (enoughNames : effect.nextStage.toNat + actions.countP Action.insertsStage < 2 ^ 32) :
    (effect.run actions).Records (history ++ effect.assignments actions) := by
  induction actions generalizing effect history with
  | nil =>
      rw [assignments, List.append_nil]
      exact records
  | cons action actions ih =>
      rw [List.countP_cons] at enoughNames
      have counted := effect.nextStage_perform_le action
      rw [assignments, ← List.append_assoc]
      apply ih
      · apply records.perform
        intro inserts
        rw [if_pos inserts] at enoughNames
        omega
      · omega

end Records

/-- A stage that is assigned once more to its dataset moves to the end. -/
theorem Linked.ownersOf_assign_again (linked : effect.Linked)
    (assigned : effect.datasetOf? id = some name) :
    (effect.assign id (some name)).state.ownersOf name = (effect.ownersOf name).erase id ++ [id] := by
  obtain ⟨entry, found, _⟩ := Option.bind_eq_some_iff.mp assigned
  obtain ⟨dataset, known, _⟩ := linked.exists_dataset assigned
  have accepted : (effect.assign id (some name)).answer = .ok () := by
    unfold Effect.assign
    rw [found]
    dsimp only
    rw [dataset_eq_ok_iff.mpr known]
    rfl
  rw [linked.ownersOf_assign accepted, if_pos rfl]

/-- Assigning a stage twice in a row comes to the same as assigning it once. -/
theorem Linked.ownersOf_assign_twice (linked : effect.Linked) (id : StageId)
    (new? : Option DatasetId) (name : DatasetId) :
    ((effect.assign id new?).state.assign id new?).state.ownersOf name =
      (effect.assign id new?).state.ownersOf name := by
  rcases (effect.assign id new?).state.assign_cases id new? with
    ⟨_, _, stateEq⟩ | ⟨acceptedAgain, _, _⟩
  · rw [stateEq]
  · rcases effect.assign_cases id new? with ⟨_, _, stateEq⟩ | ⟨accepted, _, _⟩
    · rw [stateEq, stateEq]
    · have notListed : id ∉ (effect.ownersOf name).erase id :=
        fun member => (linked.nodup_ownersOf name).not_mem_erase member
      rw [(linked.assign id new?).ownersOf_assign acceptedAgain, linked.ownersOf_assign accepted]
      congr 1
      by_cases last : new? = some name
      · rw [if_pos last, List.erase_append_right [id] notListed, List.erase_cons_head,
          List.append_nil]
      · rw [if_neg last, List.append_nil, List.erase_of_not_mem notListed]

/-- After any run that adds fewer stages than there are names, the owners of a dataset
are the stages that exist and whose last accepted assignment was to the dataset, in the
order of these assignments: such a stage has an assignment to the dataset with none of
the same stage after it.  Assigning a stage again to its dataset moves it to the end,
assigning it twice in a row is like assigning it once, and nothing but assigning and
erasing stages changes the owners of any dataset. -/
theorem owners_eq_history (options : AnalysisOptions) (actions : List Action)
    (enoughNames : actions.countP Action.insertsStage < 2 ^ 32) :
    let effect := (empty options).run actions
    let history := (empty options).assignments actions
    (∀ name dataset, effect.dataset? name = some dataset →
        dataset.owners = Assignment.owners history effect.hasStage name)
      ∧ (∀ name dataset, effect.dataset? name = some dataset → ∀ id, id ∈ dataset.owners ↔
        effect.hasStage id = true ∧ ∃ before after, history = before ++ (id, some name) :: after
          ∧ ∀ later ∈ after, later.1 ≠ id)
      ∧ (∀ id name, effect.datasetOf? id = some name →
        (effect.assign id (some name)).state.ownersOf name =
          (effect.ownersOf name).erase id ++ [id])
      ∧ (∀ id new? name, ((effect.assign id new?).state.assign id new?).state.ownersOf name =
        (effect.assign id new?).state.ownersOf name)
      ∧ ∀ action : Action, action.isAssignment = false → action.erasesStage = false →
        ∀ name, (effect.perform action).ownersOf name = effect.ownersOf name := by
  intro effect history
  have records : effect.Records ([] ++ history) := by
    apply (Records.empty options).run
    have counter : (empty options).nextStage.toNat = 0 := rfl
    omega
  have ownersEq (name : DatasetId) (dataset : Dataset)
      (found : effect.dataset? name = some dataset) :
      dataset.owners = Assignment.owners history effect.hasStage name := by
    have recorded := records.ownersOf_eq name
    rw [ownersOf, found] at recorded
    exact recorded
  refine ⟨ownersEq, ?_, fun _ _ => records.linked.ownersOf_assign_again,
    records.linked.ownersOf_assign_twice,
    fun _ notAssigned notErased => effect.ownersOf_perform notAssigned notErased⟩
  intro name dataset found id
  rw [ownersEq name dataset found, Assignment.mem_owners_iff, Assignment.mem_standing_iff]

/-- Stages move between datasets, are assigned again and are erased; the assignment to
the missing dataset is refused. -/
theorem owners_eq_history_moves :
    let stage : Stage := { kind := .update }
    let actions : List Action :=
      [.createDataset ⟨some .particle⟩, .createDataset ⟨some .spawnEvent⟩, .insertStage stage,
        .insertStage stage, .insertStage stage, .assign ⟨0⟩ (some ⟨0⟩), .assign ⟨1⟩ (some ⟨0⟩),
        .assign ⟨2⟩ (some ⟨1⟩), .assign ⟨1⟩ (some ⟨5⟩), .assign ⟨2⟩ (some ⟨0⟩),
        .assign ⟨0⟩ (some ⟨0⟩), .eraseStage ⟨1⟩, .insertStage stage, .assign ⟨3⟩ (some ⟨0⟩)]
    let effect := (empty {}).run actions
    let history := (empty {}).assignments actions
    let dataset : Dataset := { id := ⟨0⟩, kind := .particle, owners := [⟨2⟩, ⟨0⟩, ⟨3⟩] }
    actions.countP Action.insertsStage < 2 ^ 32
      ∧ effect.dataset? ⟨0⟩ = some dataset
      ∧ Assignment.owners history effect.hasStage ⟨0⟩ = [⟨2⟩, ⟨0⟩, ⟨3⟩]
      ∧ (effect.assign ⟨2⟩ (some ⟨0⟩)).state.ownersOf ⟨0⟩ = [⟨0⟩, ⟨3⟩, ⟨2⟩]
      ∧ effect.analyzeStale.state.ownersOf ⟨0⟩ = [⟨2⟩, ⟨0⟩, ⟨3⟩] := by
  intro stage actions effect history dataset
  have enoughNames : actions.countP Action.insertsStage < 2 ^ 32 := by decide
  have found : effect.dataset? ⟨0⟩ = some dataset := by decide
  have listed : effect.ownersOf ⟨0⟩ = [⟨2⟩, ⟨0⟩, ⟨3⟩] := by decide
  have assigned : effect.datasetOf? ⟨2⟩ = some ⟨0⟩ := by decide
  have recorded := owners_eq_history {} actions enoughNames
  refine ⟨enoughNames, found, (recorded.1 ⟨0⟩ dataset found).symm, ?_, ?_⟩
  · rw [recorded.2.2.1 ⟨2⟩ ⟨0⟩ assigned, listed]
    rfl
  · rw [← listed]
    exact recorded.2.2.2.2 .analyzeStale rfl rfl ⟨0⟩

end AttributeFlow.Effect
