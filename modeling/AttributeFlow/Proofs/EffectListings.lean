import AttributeFlow.Proofs.EffectEntries

/-!
# Assignments and owners after an edit

Who owns what is recorded twice: an entry holds the dataset that its stage is
assigned to, and a dataset holds the list of its owners.  Each operation on an
effect is described here by what it does to the two records.  Only creating a
dataset, withdrawing a stage and enrolling it change them.
-/

namespace AttributeFlow

namespace Dataset

/-- The name and the owners of a dataset. -/
def listing (dataset : Dataset) : DatasetId × List StageId :=
  (dataset.id, dataset.owners)

theorem listing_dropOwner (dataset : Dataset) (stage : StageId) :
    (dataset.dropOwner stage).state.listing = (dataset.id, dataset.owners.erase stage) := by
  by_cases owner : stage ∈ dataset.owners
  · simp [dropOwner, owner, listing, markStale]
  · simp [dropOwner, owner, listing, List.erase_of_not_mem owner]

theorem listing_addOwner (dataset : Dataset) (stage : StageId) :
    (dataset.addOwner stage).state.listing =
      (dataset.id,
        if stage ∈ dataset.owners then dataset.owners else dataset.owners ++ [stage]) := by
  by_cases owner : stage ∈ dataset.owners
  · simp [addOwner, owner, listing]
  · simp [addOwner, owner, listing, markStale]

end Dataset

private theorem map_modify {Item Image : Type} {view : Item → Image} {change : Item → Item}
    {onImage : Image → Image} (commutes : ∀ item, view (change item) = onImage (view item))
    (items : List Item) (place : Nat) :
    (items.modify place change).map view = (items.map view).modify place onImage := by
  apply List.ext_getElem?
  intro other
  rw [List.getElem?_map, List.getElem?_modify, List.getElem?_modify, List.getElem?_map]
  cases items[other]? with
  | none => rfl
  | some item =>
      by_cases here : place = other
      · simp [here, commutes]
      · simp [here]

namespace Effect

/-- The names and the owners of all datasets. -/
def listings (effect : Effect) : List (DatasetId × List StageId) :=
  effect.datasets.map Dataset.listing

/-- The owners of the dataset at a place, none if there is no dataset. -/
def ownersAt (effect : Effect) (place : Nat) : List StageId :=
  (effect.listings[place]?).elim [] Prod.snd

/-- The two effects record the same about who owns what. -/
structure SameLinks (effect next : Effect) : Prop where
  datasetOf?_eq : ∀ id, next.datasetOf? id = effect.datasetOf? id
  listings_eq : next.listings = effect.listings

variable {effect next : Effect} {id other : StageId} {place : Nat} {dataset : Dataset}

theorem getElem?_listings (effect : Effect) (place : Nat) :
    effect.listings[place]? = (effect.datasets[place]?).map Dataset.listing :=
  List.getElem?_map

theorem length_listings (effect : Effect) : effect.listings.length = effect.datasets.length :=
  List.length_map _

theorem ownersAt_of_getElem? (found : effect.datasets[place]? = some dataset) :
    effect.ownersAt place = dataset.owners := by
  rw [ownersAt, getElem?_listings, found]
  rfl

theorem mem_ownersAt_iff :
    id ∈ effect.ownersAt place ↔
      ∃ dataset, effect.datasets[place]? = some dataset ∧ id ∈ dataset.owners := by
  rw [ownersAt, getElem?_listings]
  cases effect.datasets[place]? with
  | none => simp
  | some dataset => simp [Dataset.listing]

theorem SameLinks.refl (effect : Effect) : effect.SameLinks effect :=
  ⟨fun _ => rfl, rfl⟩

theorem setDataset_eq_modifyDataset {name : DatasetId} (found : effect.dataset? name = some dataset)
    (change : Dataset → Dataset) :
    effect.setDataset name (change dataset) = effect.modifyDataset name change := by
  rw [setDataset, modifyDataset]
  congr 1
  apply List.ext_getElem?
  intro place
  rw [List.getElem?_set, List.getElem?_modify]
  by_cases here : name.index.toNat = place
  · subst here
    obtain ⟨placeLt, atPlace⟩ := List.getElem?_eq_some_iff.mp found
    simp [placeLt, atPlace]
  · simp [here]

theorem listings_modifyDataset (name : DatasetId) (change : Dataset → Dataset)
    (onOwners : List StageId → List StageId)
    (changes : ∀ dataset, (change dataset).listing = (dataset.id, onOwners dataset.owners)) :
    (effect.modifyDataset name change).listings =
      effect.listings.modify name.index.toNat (Prod.map (fun name => name) onOwners) :=
  map_modify changes effect.datasets _

theorem listings_modifyDataset_of_keeps (name : DatasetId) {change : Dataset → Dataset}
    (keeps : ∀ dataset, (change dataset).listing = dataset.listing) :
    (effect.modifyDataset name change).listings = effect.listings := by
  rw [listings_modifyDataset name change (fun owners => owners) keeps]
  exact List.modify_id _ _

/-- Where the owners of one dataset change, those of the others stay. -/
theorem ownersAt_of_listings_modify {onOwners : List StageId → List StageId}
    (keepsNone : onOwners [] = [])
    (listingsEq : next.listings =
      effect.listings.modify place (Prod.map (fun name => name) onOwners)) (there : Nat) :
    next.ownersAt there =
      if place = there then onOwners (effect.ownersAt there) else effect.ownersAt there := by
  rw [ownersAt, ownersAt, listingsEq, List.getElem?_modify]
  cases effect.listings[there]? with
  | none => simp [keepsNone]
  | some listing =>
      by_cases here : place = there
      · simp [here]
      · simp [here]

theorem entry?_withdraw_of_ne (different : other ≠ id) :
    entry? (effect.withdraw id) other = effect.entry? other := by
  rw [withdraw]
  split
  · rfl
  · rw [entry?_modifyEntry, if_neg different]
    · rfl
    · exact fun _ => rfl

theorem entry?_eraseStage (effect : Effect) (id other : StageId) :
    entry? (effect.eraseStage id).1 other = if other = id then none else effect.entry? other := by
  rw [eraseStage, entry?_filter]
  by_cases same : other = id
  · rw [if_pos same, if_pos same]
  · rw [if_neg same, if_neg same, entry?_withdraw_of_ne same]

theorem datasetOf?_withdraw_of_ne (different : other ≠ id) :
    (effect.withdraw id).datasetOf? other = effect.datasetOf? other :=
  datasetOf?_congr (entry?_withdraw_of_ne different)

theorem listings_withdraw {old : DatasetId} (assigned : effect.datasetOf? id = some old) :
    (effect.withdraw id).listings =
      effect.listings.modify old.index.toNat (Prod.map (fun name => name) (List.erase · id)) := by
  rw [withdraw, assigned]
  exact listings_modifyDataset old (fun dataset => (dataset.dropOwner id).state)
    (fun owners => owners.erase id) fun dataset => dataset.listing_dropOwner id

theorem withdraw_of_unassigned (unassigned : effect.datasetOf? id = none) :
    effect.withdraw id = effect := by
  rw [withdraw, unassigned]

theorem entry?_enroll_of_ne (different : other ≠ id) (new : DatasetId) :
    entry? (effect.enroll id new).state other = effect.entry? other := by
  rw [enroll]
  split
  · rfl
  · rw [entry?_modifyEntry, if_neg different]
    · rfl
    · exact fun _ => rfl

theorem datasetOf?_enroll {new : DatasetId} {entry : StageEntry}
    (entryFound : effect.entry? id = some entry) (found : effect.dataset? new = some dataset)
    (other : StageId) :
    (effect.enroll id new).state.datasetOf? other =
      if other = id then some new else effect.datasetOf? other := by
  have stillFound : entry? (effect.setDataset new (dataset.addOwner id).state) id = some entry :=
    entryFound
  rw [enroll, found]
  dsimp only
  rw [datasetOf?_modifyEntry_of_sets, stillFound]
  rfl

theorem listings_enroll {new : DatasetId} (found : effect.dataset? new = some dataset) :
    (effect.enroll id new).state.listings =
      effect.listings.modify new.index.toNat (Prod.map (fun name => name)
        fun owners => if id ∈ owners then owners else owners ++ [id]) := by
  rw [enroll, found]
  dsimp only
  rw [setDataset_eq_modifyDataset found fun dataset => (dataset.addOwner id).state]
  exact listings_modifyDataset new (fun dataset => (dataset.addOwner id).state)
    (fun owners => if id ∈ owners then owners else owners ++ [id])
    fun dataset => dataset.listing_addOwner id

theorem listings_createDataset {feed : Feed} {name : DatasetId}
    (created : effect.createDataset feed = .ok (next, name)) :
    next.listings = effect.listings ++ [(⟨UInt32.ofNat effect.datasets.length⟩, [])]
      ∧ ∀ id, next.datasetOf? id = effect.datasetOf? id := by
  have nameEq : name = ⟨UInt32.ofNat effect.datasets.length⟩ := by
    rw [createDataset] at created
    cases kindEq : Dataset.create ⟨UInt32.ofNat effect.datasets.length⟩ feed with
    | error fault =>
        rw [kindEq] at created
        cases created
    | ok dataset =>
        rw [kindEq] at created
        cases created
        rfl
  obtain ⟨kind, rfl⟩ := exists_kind_of_createDataset created
  refine ⟨?_, fun _ => rfl⟩
  rw [listings, List.map_append, nameEq]
  rfl

/-- A new dataset has no owners. -/
theorem ownersAt_createDataset {feed : Feed} {name : DatasetId}
    (created : effect.createDataset feed = .ok (next, name)) (place : Nat) :
    next.ownersAt place = effect.ownersAt place := by
  rw [ownersAt, (listings_createDataset created).1, ownersAt, List.getElem?_append, length_listings]
  split
  · rfl
  · next beyond =>
      have missing : effect.listings[place]? = none := by
        rw [List.getElem?_eq_none_iff, length_listings]
        exact Nat.le_of_not_lt beyond
      rw [missing, List.getElem?_singleton]
      split
      · rfl
      · rfl

namespace SameLinks

theorem insertStage (effect : Effect) (stage : Stage) :
    effect.SameLinks (effect.insertStage stage).1 := by
  refine ⟨?_, rfl⟩
  intro id
  rw [datasetOf?, entry?_insertStage]
  by_cases named : id = ⟨effect.nextStage⟩
  · rw [if_pos named, named]
    rfl
  · rw [if_neg named, datasetOf?]

theorem modifyStage {Answer : Type} {edit : Stage → Stage × Answer} {answer : Answer}
    (edited : effect.modifyStage id edit = .ok (next, answer)) : effect.SameLinks next := by
  have entryEdited (stage : Stage) :
      effect.SameLinks (effect.modifyEntry id fun entry => { entry with stage }) := by
    refine ⟨?_, rfl⟩
    apply datasetOf?_modifyEntry_of_keeps
    · exact fun _ => rfl
    · exact fun _ => rfl
  obtain ⟨entry, _, _, ⟨_, rfl⟩ | ⟨name, _, rfl⟩⟩ := cases_of_modifyStage_ok edited
  · exact entryEdited _
  · refine ⟨(entryEdited _).datasetOf?_eq, ?_⟩
    exact listings_modifyDataset_of_keeps name fun _ => rfl

theorem appendOperation (effect : Effect) (id : StageId) (operation : Operation) :
    effect.SameLinks (effect.appendOperation id operation).state := by
  rw [Effect.appendOperation]
  split
  · exact refl effect
  · next edited => exact modifyStage edited

theorem modifyArena {Answer : Type} (effect : Effect)
    (edit : ExpressionArena → ExpressionArena × Answer) :
    effect.SameLinks (effect.modifyArena edit).1 := by
  refine ⟨fun _ => rfl, ?_⟩
  rw [listings, Effect.modifyArena, List.map_map]
  rfl

end SameLinks

end Effect

end AttributeFlow
