import AttributeFlow.Proofs.EffectListings
import AttributeFlow.Proofs.EffectRuns

/-!
# Assignments and owners agree

A stage is assigned to a dataset exactly if the dataset lists it among its owners,
and a dataset lists no stage twice.  Whatever is done to an effect keeps it so,
hence a stage that is moved is always found where its entry says, and the look-ups
in the middle of a move or an edit cannot fail.

The name of a stage is never given again, as long as there are names for all
stages that are added.
-/

namespace AttributeFlow.Effect

/-- The name of every dataset is its place. -/
def NamedByPlace (effect : Effect) : Prop :=
  ∀ (place : Nat) (listing : DatasetId × List StageId),
    effect.listings[place]? = some listing → listing.1 = ⟨UInt32.ofNat place⟩

/-- Entries and datasets record the same about who owns what. -/
structure Linked (effect : Effect) : Prop where
  named : effect.NamedByPlace
  distinct : ∀ place, (effect.ownersAt place).Nodup
  isAt_iff : ∀ id place, effect.IsAt id place ↔ id ∈ effect.ownersAt place

variable {effect next : Effect} {id other : StageId} {place : Nat} {dataset : Dataset}

theorem linked_empty (options : AnalysisOptions) : (empty options).Linked where
  named := by simp [NamedByPlace, listings, empty]
  distinct := by simp [ownersAt, listings, empty]
  isAt_iff := by simp [ownersAt, listings, empty, IsAt, datasetOf?, entry?]

theorem NamedByPlace.of_listings_modify {onOwners : List StageId → List StageId}
    (named : effect.NamedByPlace)
    (listingsEq : next.listings =
      effect.listings.modify place (Prod.map (fun name => name) onOwners)) :
    next.NamedByPlace := by
  intro there listing found
  rw [listingsEq, List.getElem?_modify, Option.map_eq_map, Option.map_eq_some_iff] at found
  obtain ⟨old, before, rfl⟩ := found
  have oldNamed := named there old before
  by_cases here : place = there
  · simpa [here] using oldNamed
  · simpa [here] using oldNamed

theorem isAt_withdraw :
    (effect.withdraw id).IsAt other place ↔ other ≠ id ∧ effect.IsAt other place := by
  by_cases same : other = id
  · subst same
    simp [not_isAt_of_datasetOf?_none (effect.datasetOf?_withdraw other)]
  · rw [IsAt, datasetOf?_withdraw_of_ne same, IsAt]
    simp [same]

theorem isAt_enroll {new : DatasetId} {entry : StageEntry}
    (entryFound : effect.entry? id = some entry) (unassigned : effect.datasetOf? id = none)
    (found : effect.dataset? new = some dataset) :
    (effect.enroll id new).state.IsAt other place ↔
      (other = id ∧ new.index.toNat = place) ∨ effect.IsAt other place := by
  rw [IsAt, datasetOf?_enroll entryFound found]
  by_cases same : other = id
  · subst same
    simp [not_isAt_of_datasetOf?_none unassigned]
  · simp [same, IsAt]

namespace SameLinks

theorem eraseStage (effect : Effect) (id : StageId) :
    (effect.withdraw id).SameLinks (effect.eraseStage id).1 := by
  refine ⟨?_, rfl⟩
  intro other
  rw [Effect.eraseStage, datasetOf?, entry?_filter]
  by_cases same : other = id
  · rw [if_pos same, same, datasetOf?_withdraw]
    rfl
  · rw [if_neg same, datasetOf?]

private theorem listing_analyze (effect : Effect) (dataset : Dataset) :
    (dataset.analyze effect.stage? effect.arena effect.options).state.listing =
      dataset.listing := by
  have same := (dataset.analyze_outcome effect.stage? effect.arena effect.options).1
  exact Prod.ext same.id_eq same.owners_eq

theorem analyzeAnew (effect : Effect) (name : DatasetId) :
    effect.SameLinks (effect.analyzeAnew name).state := by
  rw [Effect.analyzeAnew]
  cases found : effect.dataset name with
  | error fault => exact refl effect
  | ok dataset =>
      refine ⟨fun _ => rfl, ?_⟩
      dsimp only [Reply.mapState]
      rw [setDataset_eq_modifyDataset (dataset_eq_ok_iff.mp found) fun dataset =>
        (dataset.analyze effect.stage? effect.arena effect.options).state]
      exact listings_modifyDataset_of_keeps name (listing_analyze effect)

theorem analyze (effect : Effect) (name : DatasetId) :
    effect.SameLinks (effect.analyze name).state := by
  rw [Effect.analyze]
  split
  · exact refl effect
  · split
    · exact refl effect
    · exact analyzeAnew effect name

theorem analyzeStale (effect : Effect) : effect.SameLinks effect.analyzeStale.state := by
  refine ⟨fun _ => rfl, ?_⟩
  rw [listings, listings, Effect.analyzeStale]
  dsimp only [Reply.mapState]
  generalize effect.datasets = datasets
  induction datasets with
  | nil => rfl
  | cons first rest ih =>
      rw [analyzeEach]
      split
      · exact congrArg (first.listing :: ·) ih
      · dsimp only
        split
        · exact congrArg (· :: rest.map Dataset.listing) (listing_analyze effect first)
        · exact congrArg₂ (· :: ·) (listing_analyze effect first) ih

end SameLinks

/-- Whether the action may create, move or erase what the two records hold. -/
def Action.changesLinks : Action → Bool
  | .createDataset _ | .eraseStage _ | .assign _ _ => true
  | _ => false

/-- All other actions keep both records, whether or not they are refused. -/
theorem sameLinks_perform (effect : Effect) {action : Action}
    (keeps : action.changesLinks = false) : effect.SameLinks (effect.perform action) := by
  cases action with
  | createDataset feed => cases keeps
  | insertStage stage => exact .insertStage effect stage
  | eraseStage id => cases keeps
  | assign id dataset? => cases keeps
  | modifyStage id edit =>
      rw [perform]
      split
      · next edited => exact .modifyStage edited
      · exact .refl effect
  | appendOperation id operation => exact .appendOperation effect id operation
  | changeSpace id space =>
      rw [perform]
      split
      · next changed => exact .modifyStage (modifyStage_of_changeSpace changed)
      · exact .refl effect
  | modifyArena edit => exact .modifyArena effect edit
  | analyze id => exact .analyze effect id
  | analyzeAnew id => exact .analyzeAnew effect id
  | analyzeStale => exact .analyzeStale effect

namespace Linked

theorem congr (linked : effect.Linked) (same : effect.SameLinks next) : next.Linked where
  named := by
    rw [NamedByPlace, same.listings_eq]
    exact linked.named
  distinct := by
    simp only [ownersAt, same.listings_eq]
    exact linked.distinct
  isAt_iff := by
    simp only [IsAt, same.datasetOf?_eq, ownersAt, same.listings_eq]
    exact linked.isAt_iff

theorem not_mem_ownersAt (linked : effect.Linked) (unassigned : effect.datasetOf? id = none)
    (place : Nat) : id ∉ effect.ownersAt place := by
  rw [← linked.isAt_iff]
  exact not_isAt_of_datasetOf?_none unassigned

/-- A stage that is assigned to a dataset is one of its owners. -/
theorem exists_dataset (linked : effect.Linked) {assigned : DatasetId}
    (assignedEq : effect.datasetOf? id = some assigned) :
    ∃ dataset, effect.dataset? assigned = some dataset ∧ id ∈ dataset.owners :=
  mem_ownersAt_iff.mp ((linked.isAt_iff id _).mp ⟨assigned, assignedEq, rfl⟩)

theorem isAt_of_owner (linked : effect.Linked) (found : effect.datasets[place]? = some dataset)
    (owner : id ∈ dataset.owners) : effect.IsAt id place :=
  (linked.isAt_iff id place).mpr (mem_ownersAt_iff.mpr ⟨dataset, found, owner⟩)

/-- An owner of a dataset is assigned to it. -/
theorem datasetOf?_of_owner (linked : effect.Linked) {name : DatasetId}
    (found : effect.dataset? name = some dataset) (owner : id ∈ dataset.owners) :
    effect.datasetOf? id = some name := by
  obtain ⟨assigned, assignedEq, placeEq⟩ := linked.isAt_of_owner found owner
  have nameEq : assigned = name := congrArg DatasetId.mk (UInt32.toNat_inj.mp placeEq)
  rw [assignedEq, nameEq]

/-- Every owner of a dataset exists. -/
theorem exists_stage (linked : effect.Linked) (found : effect.datasets[place]? = some dataset)
    (owner : id ∈ dataset.owners) : ∃ stage, effect.stage? id = some stage := by
  obtain ⟨assigned, assignedEq, _⟩ := linked.isAt_of_owner found owner
  obtain ⟨entry, entryFound, _⟩ := Option.bind_eq_some_iff.mp assignedEq
  exact ⟨entry.stage, congrArg (Option.map StageEntry.stage) entryFound⟩

/-- Withdrawing a stage takes it out of all lists, since it is listed at the place it is
assigned to only. -/
theorem ownersAt_withdraw (linked : effect.Linked) (id : StageId) (place : Nat) :
    (effect.withdraw id).ownersAt place = (effect.ownersAt place).erase id := by
  cases assigned : effect.datasetOf? id with
  | none =>
      rw [withdraw_of_unassigned assigned,
        List.erase_of_not_mem (linked.not_mem_ownersAt assigned place)]
  | some old =>
      rw [ownersAt_of_listings_modify rfl (listings_withdraw assigned)]
      by_cases here : old.index.toNat = place
      · rw [if_pos here]
      · have notListed : id ∉ effect.ownersAt place := by
          rw [← linked.isAt_iff, isAt_iff_of_datasetOf?_some assigned]
          exact here
        rw [if_neg here, List.erase_of_not_mem notListed]

theorem withdraw (linked : effect.Linked) (id : StageId) : (effect.withdraw id).Linked := by
  refine ⟨?_, ?_, ?_⟩
  · cases assigned : effect.datasetOf? id with
    | none =>
        rw [withdraw_of_unassigned assigned]
        exact linked.named
    | some old => exact linked.named.of_listings_modify (listings_withdraw assigned)
  · intro place
    rw [linked.ownersAt_withdraw]
    exact (linked.distinct place).erase id
  · intro other place
    rw [isAt_withdraw, linked.ownersAt_withdraw, (linked.distinct place).mem_erase_iff,
      linked.isAt_iff]

/-- A stage that is enrolled becomes the last owner of its dataset. -/
theorem ownersAt_enroll (linked : effect.Linked) (unassigned : effect.datasetOf? id = none)
    {new : DatasetId} (found : effect.dataset? new = some dataset) (place : Nat) :
    (effect.enroll id new).state.ownersAt place =
      effect.ownersAt place ++ if new.index.toNat = place then [id] else [] := by
  have newExists : effect.datasets[new.index.toNat]? = some dataset := found
  rw [ownersAt, listings_enroll found, List.getElem?_modify, ownersAt]
  by_cases here : new.index.toNat = place
  · subst here
    have absent := linked.not_mem_ownersAt unassigned new.index.toNat
    rw [ownersAt_of_getElem? newExists] at absent
    simp [getElem?_listings, newExists, Dataset.listing, absent]
  · cases effect.listings[place]? with
    | none => simp [here]
    | some listing => simp [here]

theorem enroll (linked : effect.Linked) {entry : StageEntry}
    (entryFound : effect.entry? id = some entry) (unassigned : effect.datasetOf? id = none)
    (new : DatasetId) : (effect.enroll id new).state.Linked := by
  cases found : effect.dataset? new with
  | none =>
      rw [Effect.enroll, found]
      exact linked
  | some dataset =>
      refine ⟨linked.named.of_listings_modify (listings_enroll found), ?_, ?_⟩
      · intro place
        rw [linked.ownersAt_enroll unassigned found]
        by_cases here : new.index.toNat = place
        · rw [if_pos here, ← List.concat_eq_append]
          exact (linked.distinct place).concat (linked.not_mem_ownersAt unassigned place)
        · rw [if_neg here, List.append_nil]
          exact linked.distinct place
      · intro other place
        rw [isAt_enroll entryFound unassigned found, linked.ownersAt_enroll unassigned found,
          List.mem_append, linked.isAt_iff, or_comm]
        by_cases here : new.index.toNat = place
        · simp [here]
        · simp [here]

theorem assign (linked : effect.Linked) (id : StageId) (new? : Option DatasetId) :
    (effect.assign id new?).state.Linked := by
  unfold Effect.assign
  cases found : effect.entry? id with
  | none => exact linked
  | some entry =>
      cases new? with
      | none => exact linked.withdraw id
      | some new =>
          dsimp only
          cases effect.dataset new with
          | error fault => exact linked
          | ok dataset =>
              obtain ⟨_, stillFound⟩ := exists_entry_withdraw found
              exact (linked.withdraw id).enroll stillFound (effect.datasetOf?_withdraw id) new

theorem createDataset (linked : effect.Linked) {feed : Feed} {name : DatasetId}
    (created : effect.createDataset feed = .ok (next, name)) : next.Linked := by
  obtain ⟨listingsEq, sameDataset⟩ := listings_createDataset created
  refine ⟨?_, ?_, ?_⟩
  · intro place listing found
    rw [listingsEq, List.getElem?_append, length_listings, List.getElem?_singleton] at found
    split at found
    · exact linked.named place listing found
    · split at found
      · next beyond first =>
          cases found
          have placeEq : effect.datasets.length = place := by omega
          rw [placeEq]
      · cases found
  · intro place
    rw [ownersAt_createDataset created]
    exact linked.distinct place
  · intro id place
    rw [IsAt, sameDataset, ownersAt_createDataset created]
    exact linked.isAt_iff id place

theorem perform (linked : effect.Linked) (action : Action) : (effect.perform action).Linked := by
  cases action with
  | createDataset feed =>
      rw [Effect.perform]
      split
      · next created => exact linked.createDataset created
      · exact linked
  | eraseStage id => exact (linked.withdraw id).congr (.eraseStage effect id)
  | assign id dataset? => exact linked.assign id dataset?
  | _ => exact linked.congr (effect.sameLinks_perform rfl)

/-- Whatever is done to an effect, assignments and owners go on to agree. -/
theorem run (linked : effect.Linked) (actions : List Action) : (effect.run actions).Linked := by
  induction actions generalizing effect with
  | nil => exact linked
  | cons action actions ih => exact ih (linked.perform action)

end Linked

end AttributeFlow.Effect
