import AttributeFlow.Proofs.MergeRuns
import AttributeFlow.Proofs.SharedKeys

/-!
# Placements under more flags

A table may grow by flags of known and of further stages, and further owners may be
put after the known ones.  Whether an attribute is shared depends on who touches it
in what way and not on who does not, so a shared attribute goes on to be shared, and
its key keeps all its bits.
-/

namespace AttributeFlow

/-- A key keeps its bits in another one if the readers and writers of all places stay. -/
theorem OwnerKey.and_eq_left_of_places {key wider : OwnerKey}
    (readsKept : ∀ place, key.ReadBy place → wider.ReadBy place)
    (writesKept : ∀ place, key.WrittenBy place → wider.WrittenBy place) : key &&& wider = key := by
  rw [eq_iff_places]
  intro place
  simp only [ReadBy, WrittenBy, BitVec.getLsbD_and, Bool.and_eq_true, and_iff_left_iff_imp]
  exact ⟨readsKept place, writesKept place⟩

/-- Owners that come after the known ones do not move them. -/
theorem idxOf?_of_more_owners {owners wider : List StageId} (isPrefix : owners <+: wider)
    {stage : StageId} {place : Nat} (placed : owners.idxOf? stage = some place) :
    wider.idxOf? stage = some place := by
  obtain ⟨further, rfl⟩ := isPrefix
  rw [List.idxOf?] at placed ⊢
  rw [List.findIdx?_append, placed]
  rfl

namespace AccessTable

/-- One table has all the flags of another, and the stages that these belong to are
of the same kinds. -/
structure GrowsTo (table next : AccessTable) (kindOf nextKindOf : StageId → Option StageKind) :
    Prop where
  coherent : table.Coherent
  nextCoherent : next.Coherent
  within : table.Within next
  kindsKept : ∀ row ∈ table.rows, ∀ kind, kindOf row.stage = some kind →
    nextKindOf row.stage = some kind

namespace GrowsTo

variable {table next : AccessTable} {owners nextOwners : List StageId}
  {kindOf nextKindOf : StageId → Option StageKind} {plan nextPlan : PlacementPlan}
  {attr : Attribute} {key : OwnerKey} {who nextWho : StageId → StageKind → Prop}

private theorem involves_flag {flag : Nat} (grows : table.GrowsTo next kindOf nextKindOf)
    (notOfSource : ¬ Mode.readSource.Has flag)
    (weaker : ∀ stage kind, who stage kind → nextWho stage kind)
    (involves : AccessProfile.Involves kindOf (table.modesOf attr)
      fun stage kind mode => who stage kind ∧ mode.Has flag) :
    AccessProfile.Involves nextKindOf (next.modesOf attr)
      fun stage kind mode => nextWho stage kind ∧ mode.Has flag := by
  obtain ⟨stage, mode, kind, listed, _, kindEq, isWho, present⟩ := involves
  have cell := grows.coherent.mem_modesOf_iff.mp listed
  have member : (⟨stage, attr, mode⟩ : AccessRow) ∈ table.rows :=
    grows.coherent.mem_rows_iff.mpr cell
  obtain ⟨rfl, _⟩ := cell
  exact (grows.nextCoherent.involves_iff (by simp [notOfSource]) (by simp [Mode.not_has_empty])).mpr
    ⟨stage, kind, grows.kindsKept _ member kind kindEq, weaker stage kind isWho,
      grows.within attr stage flag present⟩

theorem involves_reads (grows : table.GrowsTo next kindOf nextKindOf)
    (weaker : ∀ stage kind, who stage kind → nextWho stage kind)
    (reads : AccessProfile.Involves kindOf (table.modesOf attr)
      fun stage kind mode => who stage kind ∧ mode.reads = true) :
    AccessProfile.Involves nextKindOf (next.modesOf attr)
      fun stage kind mode => nextWho stage kind ∧ mode.reads = true := by
  simp only [Mode.reads_iff] at reads ⊢
  exact grows.involves_flag (by simp [← Mode.reads_iff, Mode.not_reads_readSource]) weaker reads

theorem involves_writes (grows : table.GrowsTo next kindOf nextKindOf)
    (weaker : ∀ stage kind, who stage kind → nextWho stage kind)
    (writes : AccessProfile.Involves kindOf (table.modesOf attr)
      fun stage kind mode => who stage kind ∧ mode.writes = true) :
    AccessProfile.Involves nextKindOf (next.modesOf attr)
      fun stage kind mode => nextWho stage kind ∧ mode.writes = true := by
  simp only [Mode.writes_iff] at writes ⊢
  exact grows.involves_flag (by simp [← Mode.writes_iff, Mode.not_writes_readSource]) weaker writes

/-- What keeps the value of an attribute is still there. -/
theorem profile_grows (grows : table.GrowsTo next kindOf nextKindOf)
    (nextPlanned : (Classification.ofTable next nextOwners nextKindOf).plan = .ok nextPlan)
    {profile : AccessProfile}
    (describes : AccessProfile.Describes attr owners kindOf profile (table.modesOf attr))
    (kept : profile.isLocal = false) :
    ∃ nextProfile : AccessProfile, nextPlan.placement? attr = some (.shared nextProfile.key)
      ∧ AccessProfile.Describes attr nextOwners nextKindOf nextProfile (next.modesOf attr) := by
  obtain ⟨read, produced⟩ := describes.isLocal_eq_false_iff.mp kept
  have nextRead := grows.involves_reads (fun _ _ notInit => notInit) read
  have nextUsed : attr ∈ next.attributes := by
    obtain ⟨stage, mode, kind, listed, _⟩ := nextRead
    have cell := grows.nextCoherent.mem_modesOf_iff.mp listed
    rw [← contains_iff_mem, grows.nextCoherent.contains_iff]
    exact ⟨stage, cell.1.trans_ne cell.2⟩
  obtain ⟨nextProfile, placementEq, nextDescribes⟩ :=
    grows.nextCoherent.placement?_eq nextPlanned nextUsed
  have nextKept : nextProfile.isLocal = false := by
    apply nextDescribes.isLocal_eq_false_iff.mpr
    refine ⟨nextRead, produced.imp_right (Or.imp ?_ ?_)⟩
    · exact grows.involves_writes fun _ _ isInit => isInit
    · exact grows.involves_writes fun _ _ isUpdate => isUpdate
  rw [AccessProfile.placement, nextKept] at placementEq
  exact ⟨nextProfile, placementEq, nextDescribes⟩

theorem isShared_grows (grows : table.GrowsTo next kindOf nextKindOf)
    (planned : (Classification.ofTable table owners kindOf).plan = .ok plan)
    (nextPlanned : (Classification.ofTable next nextOwners nextKindOf).plan = .ok nextPlan)
    (shared : plan.isShared attr = true) : nextPlan.isShared attr = true := by
  obtain ⟨key, keyEq⟩ := Option.isSome_iff_exists.mp shared
  obtain ⟨profile, _, kept, describes⟩ := grows.coherent.exists_profile_of_key? planned keyEq
  obtain ⟨nextProfile, placementEq, _⟩ := grows.profile_grows nextPlanned describes kept
  rw [PlacementPlan.isShared, PlacementPlan.key?, placementEq]
  rfl

theorem key?_grows (grows : table.GrowsTo next kindOf nextKindOf)
    (isPrefix : owners <+: nextOwners)
    (planned : (Classification.ofTable table owners kindOf).plan = .ok plan)
    (nextPlanned : (Classification.ofTable next nextOwners nextKindOf).plan = .ok nextPlan)
    (shared : plan.key? attr = some key) :
    nextPlan.isLocal attr = false
      ∧ ∃ nextKey, nextPlan.key? attr = some nextKey ∧ key &&& nextKey = key := by
  obtain ⟨profile, rfl, kept, describes⟩ := grows.coherent.exists_profile_of_key? planned shared
  obtain ⟨nextProfile, placementEq, nextDescribes⟩ := grows.profile_grows nextPlanned describes kept
  refine ⟨?_, nextProfile.key, ?_, ?_⟩
  · rw [PlacementPlan.isLocal, placementEq]
    rfl
  · rw [PlacementPlan.key?, placementEq]
    rfl
  · apply OwnerKey.and_eq_left_of_places
    · intro place
      rw [describes.readBy, nextDescribes.readBy]
      simp only [← and_assoc]
      exact grows.involves_reads fun _ _ => And.imp_right (idxOf?_of_more_owners isPrefix)
    · intro place
      rw [describes.writtenBy, nextDescribes.writtenBy]
      simp only [← and_assoc]
      exact grows.involves_writes fun _ _ => And.imp_right (idxOf?_of_more_owners isPrefix)

end GrowsTo

end AccessTable

end AttributeFlow
