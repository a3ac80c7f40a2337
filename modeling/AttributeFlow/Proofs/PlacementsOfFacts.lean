import AttributeFlow.Proofs.ClassificationFaults
import AttributeFlow.Proofs.MovedKeys

/-!
# Placements depend on facts

A profile is drawn up row by row, and each of its fields and each bit of its key can only be
switched on.  What it says in the end is therefore decided by which rows there are, and not by
their order.

So tables that hold the same facts are classified alike, whatever stages their rows belong to.
If one of them has a plan then so has the other, and both plans place every attribute in the
same way.
-/

namespace AttributeFlow

namespace AccessProfile

variable {attr : Attribute} {owners : List StageId} {kindOf : StageId → Option StageKind}
  {profile otherProfile : AccessProfile} {rows otherRows : List (StageId × Mode)}

theorem involves_congr (sameRows : ∀ row, row ∈ rows ↔ row ∈ otherRows)
    (wanted : StageId → StageKind → Mode → Prop) :
    Involves kindOf rows wanted ↔ Involves kindOf otherRows wanted := by
  simp only [Involves, sameRows]

/-- Rows leave no choice in the profile that describes them, and their order has no say in it.
The owners need not be distinct. -/
theorem Describes.profile_eq (describes : Describes attr owners kindOf profile rows)
    (otherDescribes : Describes attr owners kindOf otherProfile otherRows)
    (sameRows : ∀ row, row ∈ rows ↔ row ∈ otherRows) : profile = otherProfile := by
  have same {wanted : StageId → StageKind → Mode → Prop} {field otherField : Bool}
      (means : field = true ↔ Involves kindOf rows wanted)
      (otherMeans : otherField = true ↔ Involves kindOf otherRows wanted) : field = otherField := by
    rw [Bool.eq_iff_iff, means, otherMeans]
    exact involves_congr sameRows wanted
  have keyEq : profile.key = otherProfile.key := by
    rw [OwnerKey.eq_iff_places]
    intro place
    rw [describes.readBy, describes.writtenBy, otherDescribes.readBy, otherDescribes.writtenBy]
    exact ⟨involves_congr sameRows _, involves_congr sameRows _⟩
  have selfEq : profile.selfInitialized = otherProfile.selfInitialized :=
    describes.selfInitialized.trans otherDescribes.selfInitialized.symm
  have touchedAtInitEq := same describes.touchedAtInit otherDescribes.touchedAtInit
  have touchedInUpdateEq := same describes.touchedInUpdate otherDescribes.touchedInUpdate
  have touchedInOutputEq := same describes.touchedInOutput otherDescribes.touchedInOutput
  have readInUpdateEq := same describes.readInUpdate otherDescribes.readInUpdate
  have writtenInUpdateEq := same describes.writtenInUpdate otherDescribes.writtenInUpdate
  have writtenAtInitEq := same describes.writtenAtInit otherDescribes.writtenAtInit
  cases profile
  cases otherProfile
  rw [mk.injEq]
  exact ⟨keyEq, touchedAtInitEq, touchedInUpdateEq, touchedInOutputEq, readInUpdateEq,
    writtenInUpdateEq, writtenAtInitEq, selfEq⟩

theorem admits_iff {stage : StageId} :
    Admits owners kindOf stage ↔
      ∃ kind, kindOf stage = some kind ∧ (kind = .init ∨ stage ∈ owners) := by
  simp only [Admits, ne_eq, ← or_iff_not_imp_left]

end AccessProfile

/-- Plans that name no attribute twice and place every attribute in the same way have the same
entries. -/
theorem PlacementPlan.entries_perm_of_placement?_eq {plan otherPlan : PlacementPlan}
    (distinct : (plan.entries.map Prod.fst).Nodup)
    (otherDistinct : (otherPlan.entries.map Prod.fst).Nodup)
    (same : ∀ attr, plan.placement? attr = otherPlan.placement? attr) :
    plan.entries.Perm otherPlan.entries := by
  rw [List.perm_ext_iff_of_nodup distinct.of_map otherDistinct.of_map]
  rintro ⟨attr, placement⟩
  rw [← placement?_eq_some_iff distinct, ← placement?_eq_some_iff otherDistinct, same]

namespace Classification

variable {table : AccessTable} {owners : List StageId} {kindOf : StageId → Option StageKind}
  {plan : PlacementPlan}

theorem placement?_eq_none (planned : (ofTable table owners kindOf).plan = .ok plan)
    {attr : Attribute} (unused : attr ∉ table.attributes) : plan.placement? attr = none := by
  rw [← Option.isNone_iff_eq_none, ← Option.not_isSome, Bool.not_eq_true',
    ← Bool.not_eq_true, PlacementPlan.isSome_placement?_iff, map_fst_entries planned]
  exact unused

end Classification

namespace AccessTable.SameModes

variable {table other : AccessTable} {owners : List StageId}
  {kindOf : StageId → Option StageKind} {plan otherPlan : PlacementPlan}
  (same : table.SameModes other kindOf kindOf)

include same

theorem mem_modesOf_congr (attr : Attribute) (row : StageId × Mode) :
    row ∈ table.modesOf attr ↔ row ∈ other.modesOf attr := by
  obtain ⟨stage, mode⟩ := row
  rw [same.coherent.mem_modesOf_iff, same.otherCoherent.mem_modesOf_iff, same.modeAt_eq]

theorem exists_plan_congr (owners : List StageId) :
    (∃ plan, (Classification.ofTable table owners kindOf).plan = .ok plan) ↔
      ∃ otherPlan, (Classification.ofTable other owners kindOf).plan = .ok otherPlan := by
  rw [Classification.exists_plan_iff same.coherent,
    Classification.exists_plan_iff same.otherCoherent]
  simp only [same.rows_perm.mem_iff]

theorem placement?_congr
    (planned : (Classification.ofTable table owners kindOf).plan = .ok plan)
    (otherPlanned : (Classification.ofTable other owners kindOf).plan = .ok otherPlan)
    (attr : Attribute) : plan.placement? attr = otherPlan.placement? attr := by
  by_cases used : attr ∈ table.attributes
  · have otherUsed : attr ∈ other.attributes := (same.mem_attributes_congr attr).mp used
    obtain ⟨profile, placed, describes⟩ := same.coherent.placement?_eq planned used
    obtain ⟨otherProfile, otherPlaced, otherDescribes⟩ :=
      same.otherCoherent.placement?_eq otherPlanned otherUsed
    rw [placed, otherPlaced, describes.profile_eq otherDescribes (same.mem_modesOf_congr attr)]
  · have otherUnused : attr ∉ other.attributes := by
      rwa [← same.mem_attributes_congr attr]
    rw [Classification.placement?_eq_none planned used,
      Classification.placement?_eq_none otherPlanned otherUnused]

end AccessTable.SameModes

namespace Classification

/-- Take any table that was filled by merges, any owners and any kinds of stages.  There is a
plan exactly if a key can tell the owners apart and every row that is more than a read of the
source value belongs to a stage of known kind that initializes or is an owner.  A table that
holds the same facts, in whatever order, has a plan exactly if this one has.  The plans then
have the same entries, and every attribute has the same place in both, with the same key. -/
theorem plan_depends_on_facts {table : AccessTable} (reached : table.Reached)
    (owners : List StageId) (kindOf : StageId → Option StageKind) :
    ((∃ plan, (ofTable table owners kindOf).plan = .ok plan) ↔
        owners.length ≤ 16 ∧ ∀ row ∈ table.rows, row.mode ≠ .readSource →
          ∃ kind, kindOf row.stage = some kind ∧ (kind = .init ∨ row.stage ∈ owners))
      ∧ ∀ other : AccessTable, other.Reached → table.sameFacts other = true →
        ((∃ plan, (ofTable table owners kindOf).plan = .ok plan) ↔
            ∃ otherPlan, (ofTable other owners kindOf).plan = .ok otherPlan)
          ∧ ∀ plan otherPlan, (ofTable table owners kindOf).plan = .ok plan →
            (ofTable other owners kindOf).plan = .ok otherPlan →
              plan.entries.Perm otherPlan.entries
                ∧ ∀ attr, plan.placement? attr = otherPlan.placement? attr := by
  constructor
  · rw [exists_plan_iff reached.coherent]
    simp only [AccessProfile.admits_iff]
    rfl
  · intro other otherReached sameFacts
    have same : table.SameModes other kindOf kindOf :=
      { coherent := reached.coherent
        otherCoherent := otherReached.coherent
        modeAt_eq := (reached.coherent.sameFacts_iff otherReached.coherent).mp sameFacts
        kinds_eq := fun _ _ => rfl }
    refine ⟨same.exists_plan_congr owners, ?_⟩
    intro plan otherPlan planned otherPlanned
    have samePlacements := same.placement?_congr planned otherPlanned
    exact ⟨PlacementPlan.entries_perm_of_placement?_eq (nodup_entries same.coherent planned)
      (nodup_entries same.otherCoherent otherPlanned) samePlacements, samePlacements⟩

/-- The same accesses are merged in opposite orders.  The writer initializes and is no owner,
the stage that reads the source value is not even known, and one owner is listed twice.  With
one access more, of a stage that is no owner, there is no plan. -/
theorem plan_depends_on_facts_reversed :
    let accesses : List (StageId × Access) :=
      [(⟨0⟩, .write .color), (⟨1⟩, .read .color), (⟨7⟩, .readSource .color),
        (⟨2⟩, .readWrite .age), (⟨1⟩, .read .age)]
    let kindOf (stage : StageId) : Option StageKind :=
      if stage = ⟨0⟩ then some .init else if stage.index < 4 then some .update else none
    let owners : List StageId := [⟨1⟩, ⟨1⟩, ⟨2⟩]
    let table := (AccessTable.mergeAll {} accesses).table
    let reversed := (AccessTable.mergeAll {} accesses.reverse).table
    let larger := (table.mergeAll [(⟨3⟩, .read .size)]).table
    table.Reached ∧ reversed.Reached ∧ table.sameFacts reversed = true
      ∧ (ofTable table owners kindOf).plan = .ok ⟨[(.color, .shared 1), (.age, .shared 49)]⟩
      ∧ (ofTable reversed owners kindOf).plan = .ok ⟨[(.age, .shared 49), (.color, .shared 1)]⟩
      ∧ (∀ attr, (⟨[(.color, .shared 1), (.age, .shared 49)]⟩ : PlacementPlan).placement? attr =
        (⟨[(.age, .shared 49), (.color, .shared 1)]⟩ : PlacementPlan).placement? attr)
      ∧ ¬ ∃ plan, (ofTable larger owners kindOf).plan = .ok plan := by
  intro accesses kindOf owners table reversed larger
  have reached : table.Reached := AccessTable.Reached.empty.mergeAll accesses
  have reversedReached : reversed.Reached := AccessTable.Reached.empty.mergeAll accesses.reverse
  have sameFacts : table.sameFacts reversed = true := by decide
  have planned : (ofTable table owners kindOf).plan =
      .ok ⟨[(.color, .shared 1), (.age, .shared 49)]⟩ := by decide
  have reversedPlanned : (ofTable reversed owners kindOf).plan =
      .ok ⟨[(.age, .shared 49), (.color, .shared 1)]⟩ := by decide
  have compared := (plan_depends_on_facts reached owners kindOf).2 reversed reversedReached
    sameFacts
  refine ⟨reached, reversedReached, sameFacts, planned, reversedPlanned,
    (compared.2 _ _ planned reversedPlanned).2, ?_⟩
  rw [(plan_depends_on_facts (reached.mergeAll [(⟨3⟩, .read .size)]) owners kindOf).1]
  rintro ⟨_, admitted⟩
  obtain ⟨kind, kindEq, isInit | isOwner⟩ :=
    admitted ⟨⟨3⟩, .size, .readCurrent⟩ (by decide) (by decide)
  · cases kindEq.symm.trans (by decide : kindOf ⟨3⟩ = some .update)
    cases isInit
  · exact absurd isOwner (by decide)

end Classification

end AttributeFlow
