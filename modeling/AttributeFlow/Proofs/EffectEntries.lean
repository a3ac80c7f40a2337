import AttributeFlow.Effect
import Mathlib.Algebra.GroupWithZero.Nat

/-!
# Entries and datasets after an edit

An edit of one stage leaves the entries of all other stages as they are, and an
edit of one dataset leaves all other datasets as they are.
-/

namespace AttributeFlow.Effect

variable {effect : Effect}

theorem entry?_modifyEntry {change : StageEntry → StageEntry}
    (keepsName : ∀ entry, (change entry).id = entry.id) (id other : StageId) :
    entry? (effect.modifyEntry id change) other =
      if other = id then (effect.entry? id).map change else effect.entry? other := by
  unfold entry? modifyEntry
  induction effect.entries with
  | nil => simp
  | cons entry entries ih =>
      rw [List.map_cons, List.find?_cons, List.find?_cons, List.find?_cons, ih]
      by_cases same : entry.id = id
      · rw [if_pos same, keepsName]
        by_cases asked : other = id
        · subst asked
          simp [same]
        · have isOther : (entry.id == other) = false := by
            simpa [same] using Ne.symm asked
          simp [isOther, asked]
      · rw [if_neg same]
        by_cases asked : other = id
        · subst asked
          have notFound : (entry.id == other) = false := by
            simpa using same
          simp [notFound]
        · simp [asked]

theorem datasetOf?_congr {next : Effect} {id : StageId}
    (entryEq : next.entry? id = effect.entry? id) :
    next.datasetOf? id = effect.datasetOf? id := by
  rw [datasetOf?, entryEq, datasetOf?]

theorem datasetOf?_modifyEntry_of_keeps {change : StageEntry → StageEntry}
    (keepsName : ∀ entry, (change entry).id = entry.id)
    (keepsDataset : ∀ entry, (change entry).dataset? = entry.dataset?) (id other : StageId) :
    (effect.modifyEntry id change).datasetOf? other = effect.datasetOf? other := by
  rw [datasetOf?, datasetOf?, entry?_modifyEntry keepsName]
  by_cases same : other = id
  · subst same
    rw [if_pos rfl, Option.bind_map]
    congr 1
    funext entry
    exact keepsDataset entry
  · rw [if_neg same]

theorem stage?_modifyEntry_of_keeps {change : StageEntry → StageEntry}
    (keepsName : ∀ entry, (change entry).id = entry.id)
    (keepsStage : ∀ entry, (change entry).stage = entry.stage) (id other : StageId) :
    (effect.modifyEntry id change).stage? other = effect.stage? other := by
  rw [stage?, stage?, entry?_modifyEntry keepsName]
  by_cases same : other = id
  · subst same
    rw [if_pos rfl, Option.map_map]
    congr 1
    funext entry
    exact keepsStage entry
  · rw [if_neg same]

theorem stage?_modifyEntry_of_sets {id : StageId} {stage : Stage} (other : StageId) :
    (effect.modifyEntry id fun entry => { entry with stage }).stage? other =
      if other = id then (effect.entry? id).map fun _ => stage else effect.stage? other := by
  rw [stage?, entry?_modifyEntry]
  · by_cases same : other = id
    · rw [if_pos same, if_pos same, Option.map_map]
      rfl
    · rw [if_neg same, if_neg same, stage?]
  · exact fun _ => rfl

theorem datasetOf?_modifyEntry_of_sets {id : StageId} {dataset? : Option DatasetId}
    (other : StageId) :
    (effect.modifyEntry id fun entry => { entry with dataset? }).datasetOf? other =
      if other = id then (effect.entry? id).bind fun _ => dataset? else effect.datasetOf? other := by
  rw [datasetOf?, entry?_modifyEntry]
  · by_cases same : other = id
    · rw [if_pos same, if_pos same, Option.bind_map]
      rfl
    · rw [if_neg same, if_neg same, datasetOf?]
  · exact fun _ => rfl

/-- A new stage is found under its name, where what was assigned under this name stays. -/
theorem entry?_insertStage (effect : Effect) (stage : Stage) (other : StageId) :
    entry? (effect.insertStage stage).1 other =
      if other = ⟨effect.nextStage⟩ then
        some ⟨⟨effect.nextStage⟩, stage, effect.datasetOf? ⟨effect.nextStage⟩⟩
      else effect.entry? other := by
  rw [insertStage, entry?, entriesWith]
  cases used : effect.entry? ⟨effect.nextStage⟩ with
  | some entry =>
      have named : entry.id = ⟨effect.nextStage⟩ := by simpa using List.find?_some used
      have replaced : entry? (effect.modifyEntry ⟨effect.nextStage⟩ fun entry =>
            { entry with stage }) other =
          if other = ⟨effect.nextStage⟩ then some { entry with stage } else effect.entry? other := by
        rw [entry?_modifyEntry, used, Option.map_some]
        exact fun _ => rfl
      rw [datasetOf?, used, Option.bind_some, ← named]
      rw [← named] at replaced
      exact replaced
  | none =>
      have unassigned : effect.datasetOf? ⟨effect.nextStage⟩ = none := by
        rw [datasetOf?, used, Option.bind_none]
      rw [unassigned, List.find?_append]
      by_cases asked : other = ⟨effect.nextStage⟩
      · subst asked
        unfold entry? at used
        rw [used, if_pos rfl]
        simp
      · rw [if_neg asked, entry?]
        simp [Ne.symm asked]

theorem toNat_nextStage_insertStage (effect : Effect) (stage : Stage)
    (remains : effect.nextStage.toNat + 1 < 2 ^ 32) :
    (effect.insertStage stage).1.nextStage.toNat = effect.nextStage.toNat + 1 := by
  have sumEq := UInt32.toNat_add effect.nextStage 1
  rw [UInt32.toNat_one, Nat.mod_eq_of_lt remains] at sumEq
  exact sumEq

theorem entry?_filter (effect : Effect) (id other : StageId) :
    entry? { effect with entries := effect.entries.filter fun entry => entry.id != id } other =
      if other = id then none else effect.entry? other := by
  unfold entry?
  rw [List.find?_filter]
  by_cases asked : other = id
  · subst asked
    rw [if_pos rfl, List.find?_eq_none]
    simp
  · rw [if_neg asked]
    congr 1
    funext entry
    by_cases same : entry.id = other
    · simp [same, asked]
    · simp [same]

theorem getElem?_modifyDataset_eq_some {id : DatasetId} {change : Dataset → Dataset} {place : Nat}
    {dataset : Dataset} (found : (effect.modifyDataset id change).datasets[place]? = some dataset) :
    ∃ old, effect.datasets[place]? = some old
      ∧ dataset = if id.index.toNat = place then change old else old := by
  rw [modifyDataset, List.getElem?_modify, Option.map_eq_map, Option.map_eq_some_iff] at found
  obtain ⟨old, atPlace, rfl⟩ := found
  exact ⟨old, atPlace, rfl⟩

theorem getElem?_setDataset_eq_some {id : DatasetId} {new : Dataset} {place : Nat}
    {dataset : Dataset} (found : (effect.setDataset id new).datasets[place]? = some dataset) :
    (id.index.toNat = place ∧ dataset = new)
      ∨ (id.index.toNat ≠ place ∧ effect.datasets[place]? = some dataset) := by
  rw [setDataset, List.getElem?_set] at found
  by_cases same : id.index.toNat = place
  · rw [if_pos same] at found
    split at found
    · cases found
      exact Or.inl ⟨same, rfl⟩
    · cases found
  · rw [if_neg same] at found
    exact Or.inr ⟨same, found⟩

theorem setDataset_eq_self {id : DatasetId} {dataset : Dataset}
    (found : effect.dataset? id = some dataset) : effect.setDataset id dataset = effect := by
  obtain ⟨placeLt, atPlace⟩ := List.getElem?_eq_some_iff.mp found
  rw [setDataset, ← atPlace, List.set_getElem_self]

theorem dataset_eq_ok_iff {id : DatasetId} {dataset : Dataset} :
    effect.dataset id = .ok dataset ↔ effect.dataset? id = some dataset := by
  rw [Effect.dataset]
  cases effect.dataset? id with
  | none => simp
  | some found => simp

theorem exists_kind_of_createDataset {next : Effect} {feed : Feed} {id : DatasetId}
    (created : effect.createDataset feed = .ok (next, id)) :
    ∃ kind, next = { effect with datasets := effect.datasets ++ [{ id, kind }] } := by
  rw [createDataset] at created
  cases made : Dataset.create ⟨UInt32.ofNat effect.datasets.length⟩ feed with
  | error fault =>
      rw [made] at created
      cases created
  | ok dataset =>
      obtain ⟨kind, rfl⟩ := Dataset.exists_kind_of_create made
      rw [made] at created
      cases created
      exact ⟨kind, rfl⟩

/-- Only a stage that does not exist cannot be edited. -/
theorem modifyStage_eq_error_iff {Answer : Type} {id : StageId} {edit : Stage → Stage × Answer}
    {fault : Fault} :
    effect.modifyStage id edit = .error fault ↔
      effect.entry? id = none ∧ fault = .unknownStage id := by
  rw [modifyStage]
  cases effect.entry? id with
  | none => simp [eq_comm]
  | some entry =>
      dsimp only
      cases entry.dataset? <;> simp

/-- An edit that is carried out changes the entry of the stage, and makes the dataset of the
stage stale if it has one. -/
theorem cases_of_modifyStage_ok {Answer : Type} {next : Effect} {id : StageId}
    {edit : Stage → Stage × Answer} {answer : Answer}
    (edited : effect.modifyStage id edit = .ok (next, answer)) :
    ∃ entry, effect.entry? id = some entry ∧ answer = (edit entry.stage).2
      ∧ ((effect.datasetOf? id = none
          ∧ next = effect.modifyEntry id fun other => { other with stage := (edit entry.stage).1 })
        ∨ ∃ name, effect.datasetOf? id = some name
          ∧ next = (effect.modifyEntry id fun other =>
              { other with stage := (edit entry.stage).1 }).modifyDataset name Dataset.markStale) := by
  rw [modifyStage] at edited
  cases found : effect.entry? id with
  | none =>
      rw [found] at edited
      cases edited
  | some entry =>
      have assignedEq : effect.datasetOf? id = entry.dataset? := by
        rw [datasetOf?, found, Option.bind_some]
      rw [found] at edited
      rw [assignedEq]
      dsimp only at edited
      cases assigned : entry.dataset? with
      | none =>
          rw [assigned] at edited
          cases edited
          exact ⟨entry, rfl, rfl, Or.inl ⟨rfl, rfl⟩⟩
      | some name =>
          rw [assigned] at edited
          cases edited
          exact ⟨entry, rfl, rfl, Or.inr ⟨name, rfl, rfl⟩⟩

/-- The space of a stage is changed like any part of it. -/
theorem modifyStage_of_changeSpace {next : Effect} {id : StageId} {space : Space}
    (changed : effect.changeSpace id space = .ok next) :
    effect.modifyStage id (fun stage => ({ stage with space }, ())) = .ok (next, ()) := by
  rw [changeSpace] at changed
  cases edited : effect.modifyStage id fun stage => ({ stage with space }, ()) with
  | error fault =>
      rw [edited] at changed
      cases changed
  | ok outcome =>
      rw [edited] at changed
      cases changed
      rfl

end AttributeFlow.Effect
