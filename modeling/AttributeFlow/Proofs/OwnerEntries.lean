import AttributeFlow.Proofs.IndependentAssignments
import AttributeFlow.Proofs.PlanCoverage
import AttributeFlow.Proofs.WireTexts

/-!
# Entries of owners

A stage that is made an owner gets one entry in the list of owners, unless it has one already.
A dataset that was created therefore never lists a stage twice, and taking a stage out of the
owners leaves it no entry.  A text may list a stage any number of times, though, and the owners
are taken from it as they are written.  Taking a stage out of them removes its first entry only,
so that the stage goes on to be an owner if it has another one.

The number of entries of a stage is followed through whatever is done to a dataset.  Only calls
about this very stage change it, and none of them gives it a second entry.
-/

namespace AttributeFlow.Dataset

/-- The number of times that a stage is listed among the owners. -/
def entriesOf (dataset : Dataset) (stage : StageId) : Nat :=
  dataset.owners.count stage

/-- The number of entries of a stage after a step, from the one before. -/
def Step.recount (stage : StageId) (entries : Nat) : Step → Nat
  | .addOwner other => if other = stage then max entries 1 else entries
  | .dropOwner other => if other = stage then entries - 1 else entries
  | _ => entries

variable {dataset : Dataset} {stage other : StageId}

theorem entriesOf_pos_iff : 0 < dataset.entriesOf stage ↔ stage ∈ dataset.owners :=
  List.count_pos_iff

theorem owners_addOwner (dataset : Dataset) (stage : StageId) :
    (dataset.addOwner stage).state.owners =
      dataset.owners ++ if dataset.owners.contains stage then [] else [stage] := by
  rw [state_addOwner]

theorem owners_dropOwner (dataset : Dataset) (stage : StageId) :
    (dataset.dropOwner stage).state.owners = dataset.owners.erase stage := by
  rw [state_dropOwner]

theorem entriesOf_addOwner (dataset : Dataset) (stage other : StageId) :
    (dataset.addOwner other).state.entriesOf stage =
      if other = stage then max (dataset.entriesOf stage) 1 else dataset.entriesOf stage := by
  rw [entriesOf, owners_addOwner, List.count_append, ← entriesOf]
  by_cases same : other = stage
  · subst same
    rw [if_pos rfl]
    cases owner : dataset.owners.contains other with
    | true =>
        have listed := entriesOf_pos_iff.mpr (List.contains_iff_mem.mp owner)
        simpa using (Nat.max_eq_left listed).symm
    | false =>
        have absent : dataset.entriesOf other = 0 :=
          List.count_eq_zero.mpr (by simpa using owner)
        simp [absent]
  · rw [if_neg same]
    split
    · rfl
    · rw [List.count_singleton, beq_eq_false_iff_ne.mpr same]
      rfl

theorem entriesOf_dropOwner (dataset : Dataset) (stage other : StageId) :
    (dataset.dropOwner other).state.entriesOf stage =
      if other = stage then dataset.entriesOf stage - 1 else dataset.entriesOf stage := by
  rw [entriesOf, owners_dropOwner, List.count_erase, ← entriesOf]
  by_cases same : other = stage
  · simp [same]
  · simp [same]

/-- Adding an owner leaves all others as they are, in their order. -/
theorem others_addOwner (dataset : Dataset) (stage : StageId) :
    (dataset.addOwner stage).state.owners.filter (· != stage) =
      dataset.owners.filter (· != stage) := by
  rw [owners_addOwner, List.filter_append]
  split
  · exact List.append_nil _
  · simp

/-- Dropping an owner leaves all others as they are, in their order. -/
theorem others_dropOwner (dataset : Dataset) (stage : StageId) :
    (dataset.dropOwner stage).state.owners.filter (· != stage) =
      dataset.owners.filter (· != stage) := by
  rw [owners_dropOwner]
  by_cases owner : stage ∈ dataset.owners
  · obtain ⟨before, after, _, ownersEq, erasedEq⟩ := List.exists_erase_eq owner
    rw [erasedEq, ownersEq]
    simp
  · rw [List.erase_of_not_mem owner]

/-- Owners that are the same but for one stage have the same other members. -/
theorem mem_iff_of_others_eq {owners next : List StageId}
    (others : next.filter (· != stage) = owners.filter (· != stage)) (different : other ≠ stage) :
    other ∈ next ↔ other ∈ owners := by
  have member : other ∈ next.filter (· != stage) ↔ other ∈ owners.filter (· != stage) := by
    rw [others]
  simpa [different] using member

/-- Only adding and dropping owners changes entries. -/
theorem entriesOf_perform (dataset : Dataset) (step : Step) (stage : StageId) :
    (dataset.perform step).entriesOf stage = step.recount stage (dataset.entriesOf stage) := by
  cases step with
  | addOwner other => exact dataset.entriesOf_addOwner stage other
  | dropOwner other => exact dataset.entriesOf_dropOwner stage other
  | markStale => rfl
  | addAccess other access =>
      rw [perform, addAccess]
      cases dataset.table.merge other access <;> rfl
  | retable stages arena options => rfl
  | replan stages =>
      cases planned : (dataset.classification stages).plan with
      | error fault =>
          rw [perform, (replan_of_error planned).1]
          rfl
      | ok plan =>
          rw [perform, (replan_of_ok planned).1]
          rfl
  | analyze stages arena options =>
      rw [perform, entriesOf, (dataset.analyze_outcome stages arena options).1.owners_eq]
      rfl

theorem entriesOf_run (dataset : Dataset) (steps : List Step) (stage : StageId) :
    (dataset.run steps).entriesOf stage =
      steps.foldl (Step.recount stage) (dataset.entriesOf stage) := by
  induction steps generalizing dataset with
  | nil => rfl
  | cons step steps ih =>
      rw [run, List.foldl_cons, ← run, ih, entriesOf_perform, List.foldl_cons]

/-- No step gives a stage a second entry. -/
theorem Step.recount_le (stage : StageId) {entries most : Nat} (atMost : entries ≤ most)
    (someEntry : 0 < most) (step : Step) : step.recount stage entries ≤ most := by
  cases step with
  | addOwner other =>
      rw [recount]
      split <;> omega
  | dropOwner other =>
      rw [recount]
      split <;> omega
  | _ => exact atMost

/-- A stage has several entries only if it had several to begin with. -/
theorem entriesOf_run_le (dataset : Dataset) (steps : List Step) (stage : StageId) :
    (dataset.run steps).entriesOf stage ≤ max (dataset.entriesOf stage) 1 := by
  rw [entriesOf_run]
  have bounded (entries : Nat) (atMost : entries ≤ max (dataset.entriesOf stage) 1) :
      steps.foldl (Step.recount stage) entries ≤ max (dataset.entriesOf stage) 1 := by
    induction steps generalizing entries with
    | nil => exact atMost
    | cons step steps ih => exact ih _ (step.recount_le stage atMost (by omega))
  exact bounded _ (Nat.le_max_left _ _)

theorem entriesOf_of_create {id : DatasetId} {feed : Feed}
    (created : create id feed = .ok dataset) : dataset.entriesOf stage = 0 := by
  obtain ⟨kind, rfl⟩ := exists_kind_of_create created
  rfl

/-- Take a dataset that was created or read from a text, whatever has been done to it since.
Making a stage an owner makes it one, and says whether it was none before; taking it out says
whether it was one.  Neither changes the other owners or their order.  A stage that is taken out
is no owner afterwards unless it had several entries.  It never has in a dataset that was
created, and in one that was read it has them only if the text listed it more than once. -/
theorem owners_follow_calls (start : Dataset) (steps : List Step) (stage : StageId) :
    let before := start.run steps
    let added := before.addOwner stage
    let dropped := before.dropOwner stage
    (stage ∈ added.state.owners ∧ (added.answer = true ↔ stage ∉ before.owners))
      ∧ (dropped.answer = true ↔ stage ∈ before.owners)
      ∧ (stage ∈ dropped.state.owners ↔ 1 < before.entriesOf stage)
      ∧ (∀ id feed, create id feed = .ok start → stage ∉ dropped.state.owners)
      ∧ (stage ∈ dropped.state.owners → 1 < start.entriesOf stage)
      ∧ (∀ other, other ≠ stage →
        (other ∈ added.state.owners ↔ other ∈ before.owners)
          ∧ (other ∈ dropped.state.owners ↔ other ∈ before.owners))
      ∧ added.state.owners.filter (· != stage) = before.owners.filter (· != stage)
      ∧ dropped.state.owners.filter (· != stage) = before.owners.filter (· != stage) := by
  intro before added dropped
  have others : added.state.owners.filter (· != stage) = before.owners.filter (· != stage) :=
    before.others_addOwner stage
  have othersDropped : dropped.state.owners.filter (· != stage) =
      before.owners.filter (· != stage) := before.others_dropOwner stage
  have bounded : before.entriesOf stage ≤ max (start.entriesOf stage) 1 :=
    start.entriesOf_run_le steps stage
  have remains_iff : stage ∈ dropped.state.owners ↔ 1 < before.entriesOf stage := by
    rw [← entriesOf_pos_iff, entriesOf_dropOwner, if_pos rfl, Nat.sub_pos_iff_lt]
  have addedAnswer : added.answer = !before.owners.contains stage := before.answer_addOwner stage
  have droppedAnswer : dropped.answer = before.owners.contains stage :=
    before.answer_dropOwner stage
  refine ⟨⟨before.mem_owners_addOwner stage, by simp [addedAnswer]⟩, by simp [droppedAnswer],
    remains_iff, ?_, ?_, ?_, others, othersDropped⟩
  · intro id feed created
    rw [remains_iff]
    rw [entriesOf_of_create created] at bounded
    omega
  · intro remains
    have several := remains_iff.mp remains
    omega
  · intro other different
    exact ⟨mem_iff_of_others_eq others different, mem_iff_of_others_eq othersDropped different⟩

/-- Stages come and go in a dataset that was created: the one that came twice has one entry, and
has none after it was dropped. -/
theorem owners_follow_calls_twice :
    let start : Dataset := { id := ⟨0⟩, kind := .particle }
    let before := start.run [.addOwner ⟨3⟩, .addOwner ⟨3⟩, .addOwner ⟨1⟩, .dropOwner ⟨42⟩]
    let dropped := before.dropOwner ⟨3⟩
    create ⟨0⟩ ⟨some .particle⟩ = .ok start ∧ before.owners = [⟨3⟩, ⟨1⟩]
      ∧ dropped.answer = true ∧ ⟨3⟩ ∉ dropped.state.owners
      ∧ dropped.state.owners.filter (· != ⟨3⟩) = [⟨1⟩] := by
  intro start before dropped
  have created : create ⟨0⟩ ⟨some .particle⟩ = .ok start := rfl
  have ownersEq : before.owners = [⟨3⟩, ⟨1⟩] := by decide
  obtain ⟨_, answered, _, isGone, _, _, _, others⟩ := owners_follow_calls start
    [.addOwner ⟨3⟩, .addOwner ⟨3⟩, .addOwner ⟨1⟩, .dropOwner ⟨42⟩] ⟨3⟩
  refine ⟨created, ownersEq, answered.mpr ?_, isGone ⟨0⟩ ⟨some .particle⟩ created, others.trans ?_⟩
  · exact ownersEq ▸ List.mem_cons_self
  · rw [show (start.run _).owners = _ from ownersEq]
    rfl

/-- A text lists a stage twice, and the stage is an owner after it was dropped. -/
theorem dropOwner_leaves_second_entry :
    let start : Dataset := { id := ⟨0⟩, kind := .particle, owners := [⟨7⟩, ⟨7⟩] }
    let dropped := start.dropOwner ⟨7⟩
    JsonForm.read? "\x7b\"id\":0,\"kind\":\"Particle\",\"owners\":[7,7]\x7d" = some start
      ∧ dropped.answer = true ∧ dropped.state.owners = [⟨7⟩] := by
  decide +kernel

end AttributeFlow.Dataset
