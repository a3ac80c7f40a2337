import AttributeFlow.Proofs.AnalysisDependence
import AttributeFlow.Proofs.EffectEntries

/-!
# Edits keep analyses current

In a consistent effect a stage is listed by no dataset but the one it is assigned
to, and every dataset that counts as analyzed is current.  So an edit of a stage
can only concern the dataset that the stage is assigned to, which the edit makes
stale, and all other datasets stay current.
-/

namespace AttributeFlow.Effect

/-- The stage is assigned to the dataset at a place. -/
def IsAt (effect : Effect) (id : StageId) (place : Nat) : Prop :=
  ∃ dataset, effect.datasetOf? id = some dataset ∧ dataset.index.toNat = place

/-- What holds of each dataset of a consistent effect. -/
structure Upholds (effect : Effect) (place : Nat) (dataset : Dataset) : Prop where
  ownersDistinct : dataset.owners.Nodup
  ownersAssigned : ∀ owner ∈ dataset.owners, effect.IsAt owner place
  analysisStands : dataset.analyzed = true →
    dataset.IsCurrent effect.stage? effect.arena effect.options

/-- The entries, the datasets and the counter of an effect fit together. -/
structure Consistent (effect : Effect) : Prop where
  namesTaken : ∀ id entry, effect.entry? id = some entry →
    id.index.toNat < effect.nextStage.toNat
  upholds : ∀ place dataset, effect.datasets[place]? = some dataset →
    effect.Upholds place dataset

/-- Apart from datasets, the two effects differ only in one stage. -/
structure EditsStage (effect next : Effect) (id : StageId) : Prop where
  elsewhere : ∀ other, other ≠ id → next.entry? other = effect.entry? other
  arena_eq : next.arena = effect.arena
  options_eq : next.options = effect.options
  nextStage_le : effect.nextStage.toNat ≤ next.nextStage.toNat
  nameTaken : ∀ entry, next.entry? id = some entry → id.index.toNat < next.nextStage.toNat

variable {effect next : Effect} {id : StageId} {place : Nat} {dataset : Dataset}

theorem consistent_empty (options : AnalysisOptions) : (empty options).Consistent where
  namesTaken := by simp [empty, entry?]
  upholds := by simp [empty]

theorem not_isAt_of_datasetOf?_none (unassigned : effect.datasetOf? id = none) :
    ¬ effect.IsAt id place := by
  intro isAt
  obtain ⟨assigned, assignedEq, _⟩ := isAt
  rw [unassigned] at assignedEq
  cases assignedEq

theorem isAt_iff_of_datasetOf?_some {assigned : DatasetId}
    (assignedEq : effect.datasetOf? id = some assigned) :
    effect.IsAt id place ↔ assigned.index.toNat = place := by
  constructor
  · intro isAt
    obtain ⟨other, otherEq, placeEq⟩ := isAt
    rw [assignedEq] at otherEq
    cases otherEq
    exact placeEq
  · intro placeEq
    exact ⟨assigned, assignedEq, placeEq⟩

theorem IsAt.congr (isAt : effect.IsAt id place)
    (sameDataset : next.datasetOf? id = effect.datasetOf? id) : next.IsAt id place := by
  obtain ⟨assigned, assignedEq, placeEq⟩ := isAt
  exact ⟨assigned, sameDataset.trans assignedEq, placeEq⟩

namespace EditsStage

theorem stage?_eq (edits : effect.EditsStage next id) {other : StageId} (different : other ≠ id) :
    next.stage? other = effect.stage? other := by
  rw [stage?, stage?, edits.elsewhere other different]

theorem datasetOf?_eq (edits : effect.EditsStage next id) {other : StageId}
    (different : other ≠ id) : next.datasetOf? other = effect.datasetOf? other := by
  rw [datasetOf?, datasetOf?, edits.elsewhere other different]

theorem modifyEntry {change : StageEntry → StageEntry}
    (keepsName : ∀ entry, (change entry).id = entry.id)
    (taken : ∀ entry, effect.entry? id = some entry → id.index.toNat < effect.nextStage.toNat) :
    effect.EditsStage (effect.modifyEntry id change) id where
  elsewhere := by
    intro other different
    rw [entry?_modifyEntry keepsName, if_neg different]
  arena_eq := rfl
  options_eq := rfl
  nextStage_le := Nat.le_refl _
  nameTaken := by
    intro entry found
    rw [entry?_modifyEntry keepsName, if_pos rfl, Option.map_eq_some_iff] at found
    obtain ⟨old, oldFound, _⟩ := found
    exact taken old oldFound

/-- Changes of datasets are not looked at. -/
theorem withDatasets (edits : effect.EditsStage next id) (before after : List Dataset) :
    { effect with datasets := before }.EditsStage { next with datasets := after } id :=
  ⟨edits.elsewhere, edits.arena_eq, edits.options_eq, edits.nextStage_le, edits.nameTaken⟩

/-- A dataset that the stage does not own is upheld as before. -/
theorem upholds (edits : effect.EditsStage next id) (upheld : effect.Upholds place dataset)
    (notOwner : id ∉ dataset.owners) : next.Upholds place dataset := by
  have isOther (owner : StageId) (member : owner ∈ dataset.owners) : owner ≠ id := by
    intro same
    exact notOwner (same ▸ member)
  refine ⟨upheld.ownersDistinct, ?_, ?_⟩
  · intro owner member
    have sameDataset := edits.datasetOf?_eq (isOther owner member)
    exact (upheld.ownersAssigned owner member).congr sameDataset
  · intro analyzed
    rw [edits.arena_eq, edits.options_eq]
    apply (upheld.analysisStands analyzed).congr
    intro owner member
    exact (edits.stage?_eq (isOther owner member)).symm

end EditsStage

/-- Nothing is asked of the analysis of a dataset that is stale. -/
theorem upholds_of_stale (distinct : dataset.owners.Nodup)
    (assigned : ∀ owner ∈ dataset.owners, effect.IsAt owner place)
    (stale : dataset.analyzed = false) : effect.Upholds place dataset where
  ownersDistinct := distinct
  ownersAssigned := assigned
  analysisStands := by
    intro analyzed
    rw [stale] at analyzed
    cases analyzed

namespace Consistent

theorem not_mem_owners (consistent : effect.Consistent)
    (found : effect.datasets[place]? = some dataset) (notAt : ¬ effect.IsAt id place) :
    id ∉ dataset.owners := by
  intro member
  exact notAt ((consistent.upholds place dataset found).ownersAssigned id member)

theorem namesTaken_of_edit (consistent : effect.Consistent) (edits : effect.EditsStage next id)
    (other : StageId) (entry : StageEntry) (found : next.entry? other = some entry) :
    other.index.toNat < next.nextStage.toNat := by
  by_cases same : other = id
  · subst same
    exact edits.nameTaken entry found
  · rw [edits.elsewhere other same] at found
    exact Nat.lt_of_lt_of_le (consistent.namesTaken other entry found) edits.nextStage_le

/-- An edit of a stage without a dataset concerns no dataset. -/
theorem of_edit_unassigned (consistent : effect.Consistent) (edits : effect.EditsStage next id)
    (unassigned : effect.datasetOf? id = none) (sameDatasets : next.datasets = effect.datasets) :
    next.Consistent where
  namesTaken := consistent.namesTaken_of_edit edits
  upholds := by
    intro place dataset found
    rw [sameDatasets] at found
    have notOwner := consistent.not_mem_owners found (not_isAt_of_datasetOf?_none unassigned)
    exact edits.upholds (consistent.upholds place dataset found) notOwner

/-- An edit of a stage with a dataset concerns this dataset only.  It may leave the
dataset as it is if the stage does not own it, and must make it stale otherwise. -/
theorem of_edit_assigned (consistent : effect.Consistent) (edits : effect.EditsStage next id)
    {assigned : DatasetId} (assignedEq : effect.datasetOf? id = some assigned)
    {change : Dataset → Dataset}
    (datasetsEq : next.datasets = (effect.modifyDataset assigned change).datasets)
    (changes : ∀ dataset, dataset.owners.Nodup →
      (change dataset = dataset ∧ id ∉ dataset.owners)
        ∨ ((change dataset).analyzed = false ∧ (change dataset).owners.Nodup
          ∧ ∀ owner ∈ (change dataset).owners, owner ∈ dataset.owners
            ∧ next.datasetOf? owner = effect.datasetOf? owner)) : next.Consistent where
  namesTaken := consistent.namesTaken_of_edit edits
  upholds := by
    intro place dataset found
    rw [datasetsEq] at found
    obtain ⟨old, before, datasetEq⟩ := getElem?_modifyDataset_eq_some found
    have upheld := consistent.upholds place old before
    by_cases here : assigned.index.toNat = place
    · rw [if_pos here] at datasetEq
      subst datasetEq
      rcases changes old upheld.ownersDistinct with ⟨unchanged, notOwner⟩ | ⟨stale, distinct, kept⟩
      · rw [unchanged]
        exact edits.upholds upheld notOwner
      · apply upholds_of_stale distinct _ stale
        intro owner member
        obtain ⟨wasOwner, sameDataset⟩ := kept owner member
        exact (upheld.ownersAssigned owner wasOwner).congr sameDataset
    · -- The stage is assigned to one place only, so it owns no dataset elsewhere.
      rw [if_neg here] at datasetEq
      subst datasetEq
      have notAt : ¬ effect.IsAt id place := by
        rw [isAt_iff_of_datasetOf?_some assignedEq]
        exact here
      exact edits.upholds upheld (consistent.not_mem_owners before notAt)

/-- The next name is not in use. -/
theorem entry?_nextStage (consistent : effect.Consistent) :
    effect.entry? ⟨effect.nextStage⟩ = none := by
  cases found : effect.entry? ⟨effect.nextStage⟩ with
  | none => rfl
  | some entry =>
      have taken := consistent.namesTaken _ entry found
      exact absurd taken (Nat.lt_irrefl _)

theorem insertStage (consistent : effect.Consistent) (stage : Stage)
    (remains : effect.nextStage.toNat + 1 < 2 ^ 32) : (effect.insertStage stage).1.Consistent := by
  have counted := effect.toNat_nextStage_insertStage stage remains
  have edits : effect.EditsStage (effect.insertStage stage).1 ⟨effect.nextStage⟩ := by
    refine ⟨?_, rfl, rfl, ?_, ?_⟩
    · intro other different
      rw [entry?_insertStage, if_neg different]
    · omega
    · intro _ _
      rw [counted]
      exact Nat.lt_succ_self _
  apply consistent.of_edit_unassigned edits _ rfl
  rw [datasetOf?, consistent.entry?_nextStage, Option.bind_none]

theorem modifyStage {Answer : Type} (consistent : effect.Consistent)
    {edit : Stage → Stage × Answer} {answer : Answer}
    (edited : effect.modifyStage id edit = .ok (next, answer)) : next.Consistent := by
  obtain ⟨entry, _, _, outcome⟩ := cases_of_modifyStage_ok edited
  have edits : effect.EditsStage (effect.modifyEntry id fun other =>
      { other with stage := (edit entry.stage).1 }) id :=
    .modifyEntry (fun _ => rfl) (consistent.namesTaken id)
  rcases outcome with ⟨unassigned, rfl⟩ | ⟨name, assigned, rfl⟩
  · exact consistent.of_edit_unassigned edits unassigned rfl
  · have edits := edits.withDatasets effect.datasets
      (effect.modifyDataset name Dataset.markStale).datasets
    apply consistent.of_edit_assigned edits assigned rfl
    intro old distinct
    refine Or.inr ⟨rfl, distinct, ?_⟩
    intro owner member
    have sameDataset : (effect.modifyEntry id fun other =>
        { other with stage := (edit entry.stage).1 }).datasetOf? owner =
          effect.datasetOf? owner := by
      apply datasetOf?_modifyEntry_of_keeps
      · exact fun _ => rfl
      · exact fun _ => rfl
    exact ⟨member, sameDataset⟩

theorem withdraw (consistent : effect.Consistent) (id : StageId) :
    (effect.withdraw id).Consistent := by
  rw [Effect.withdraw]
  cases assigned : effect.datasetOf? id with
  | none => exact consistent
  | some old =>
      dsimp only
      have edits : effect.EditsStage (effect.modifyEntry id fun entry =>
          { entry with dataset? := none }) id :=
        .modifyEntry (fun _ => rfl) (consistent.namesTaken id)
      have edits := edits.withDatasets effect.datasets
        (effect.modifyDataset old fun dataset => (dataset.dropOwner id).state).datasets
      apply consistent.of_edit_assigned edits assigned rfl
      intro dataset distinct
      rw [Dataset.dropOwner]
      by_cases owner : id ∈ dataset.owners
      · rw [if_pos (List.contains_iff_mem.mpr owner)]
        refine Or.inr ⟨rfl, distinct.erase id, ?_⟩
        intro other member
        have ⟨different, wasOwner⟩ := distinct.mem_erase_iff.mp member
        exact ⟨wasOwner, edits.datasetOf?_eq different⟩
      · rw [if_neg (fun contained => owner (List.contains_iff_mem.mp contained))]
        exact Or.inl ⟨rfl, owner⟩

end Consistent

/-- A stage that has been taken out of its dataset is assigned to none. -/
theorem datasetOf?_withdraw (effect : Effect) (id : StageId) :
    (effect.withdraw id).datasetOf? id = none := by
  rw [withdraw]
  cases assigned : effect.datasetOf? id with
  | none => exact assigned
  | some old =>
      dsimp only
      rw [datasetOf?_modifyEntry_of_sets, if_pos rfl]
      exact Option.bind_fun_none _

theorem exists_entry_withdraw {entry : StageEntry} (found : effect.entry? id = some entry) :
    ∃ other, entry? (effect.withdraw id) id = some other := by
  rw [withdraw]
  cases effect.datasetOf? id with
  | none => exact ⟨entry, found⟩
  | some old =>
      dsimp only
      rw [entry?_modifyEntry, if_pos rfl]
      · exact ⟨{ entry with dataset? := none }, congrArg (Option.map _) found⟩
      · intro entry
        rfl

namespace Consistent

theorem eraseStage (consistent : effect.Consistent) (id : StageId) :
    (effect.eraseStage id).1.Consistent := by
  have withdrawn := consistent.withdraw id
  have edits : (effect.withdraw id).EditsStage (effect.eraseStage id).1 id := by
    refine ⟨?_, rfl, rfl, Nat.le_refl _, ?_⟩
    · intro other different
      rw [Effect.eraseStage]
      dsimp only
      rw [entry?_filter, if_neg different]
    · intro entry found
      rw [Effect.eraseStage] at found
      dsimp only at found
      rw [entry?_filter, if_pos rfl] at found
      cases found
  exact withdrawn.of_edit_unassigned edits (effect.datasetOf?_withdraw id) rfl

/-- A stage without a dataset becomes an owner of the dataset it is assigned to. -/
theorem enroll (consistent : effect.Consistent) {entry : StageEntry}
    (entryFound : effect.entry? id = some entry) (unassigned : effect.datasetOf? id = none)
    (new : DatasetId) : (effect.enroll id new).state.Consistent := by
  rw [Effect.enroll]
  cases found : effect.dataset? new with
  | none => exact consistent
  | some dataset =>
      dsimp only
      have edits : effect.EditsStage (effect.modifyEntry id fun entry =>
          { entry with dataset? := some new }) id :=
        .modifyEntry (fun _ => rfl) (consistent.namesTaken id)
      have edits := edits.withDatasets effect.datasets
        (effect.setDataset new (dataset.addOwner id).state).datasets
      have notOwner {place : Nat} {other : Dataset}
          (otherFound : effect.datasets[place]? = some other) : id ∉ other.owners :=
        consistent.not_mem_owners otherFound (not_isAt_of_datasetOf?_none unassigned)
      refine ⟨consistent.namesTaken_of_edit edits, ?_⟩
      intro place other otherFound
      rcases getElem?_setDataset_eq_some otherFound with ⟨here, rfl⟩ | ⟨_, before⟩
      · subst here
        have upheld := consistent.upholds _ dataset found
        have isNew := notOwner found
        have assignedNew : (effect.modifyEntry id fun entry =>
            { entry with dataset? := some new }).datasetOf? id = some new := by
          rw [datasetOf?_modifyEntry_of_sets, if_pos rfl, entryFound, Option.bind_some]
        rw [Dataset.addOwner, if_neg (fun contained => isNew (List.contains_iff_mem.mp contained))]
        refine upholds_of_stale ?_ ?_ rfl
        · have distinct := upheld.ownersDistinct.concat isNew
          rwa [List.concat_eq_append] at distinct
        · intro owner member
          rcases List.mem_append.mp member with wasOwner | added
          · have different : owner ≠ id := by
              intro same
              exact isNew (same ▸ wasOwner)
            exact (upheld.ownersAssigned owner wasOwner).congr (edits.datasetOf?_eq different)
          · obtain rfl : owner = id := List.mem_singleton.mp added
            exact ⟨new, assignedNew, rfl⟩
      · exact edits.upholds (consistent.upholds place other before) (notOwner before)

end Consistent

end AttributeFlow.Effect
