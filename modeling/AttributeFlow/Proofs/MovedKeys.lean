import AttributeFlow.Proofs.PlacementGrowth
import AttributeFlow.Proofs.PlacementPartition

/-!
# Keys of owners that change places

When the owners of a dataset change places, a key is brought along by moving the two
bits of every owner from its old place to its new one.  Tables with the same modes
share the same attributes, whatever the order of owners, and the keys are those that
have been moved.
-/

namespace AttributeFlow

namespace OwnerKey

/-- The two bits of the owner at a place. -/
def group (key : OwnerKey) (place : Nat) : OwnerKey :=
  (key >>> (2 * place)) &&& 3

/-- The key that has the bits of every owner at its place among the new owners. -/
def moved (owners newOwners : List StageId) (key : OwnerKey) : OwnerKey :=
  newOwners.zipIdx.foldl
    (fun moved (owner, place) => moved ||| key.group (owners.idxOf owner) <<< (2 * place)) 0

variable {key : OwnerKey} {owners newOwners : List StageId}

theorem getLsbD_group (key : OwnerKey) (place bit : Nat) :
    (key.group place).getLsbD bit = (key.getLsbD (2 * place + bit) && decide (bit < 2)) := by
  have lowest : (3 : OwnerKey).getLsbD bit = decide (bit < 2) := by
    by_cases bitLt : bit < 32
    · have table : ∀ bit < 32, (3 : OwnerKey).getLsbD bit = decide (bit < 2) := by
        decide
      exact table bit bitLt
    · rw [BitVec.getLsbD_of_ge _ _ (Nat.le_of_not_lt bitLt)]
      simp
      omega
  rw [group, BitVec.getLsbD_and, BitVec.getLsbD_ushiftRight, lowest]

private theorem getLsbD_foldl_or {Item : Type} (word : Item → OwnerKey) (bit : Nat)
    (items : List Item) (start : OwnerKey) :
    (items.foldl (fun sum item => sum ||| word item) start).getLsbD bit = true ↔
      start.getLsbD bit = true ∨ ∃ item ∈ items, (word item).getLsbD bit = true := by
  induction items generalizing start with
  | nil => simp
  | cons item items ih =>
      rw [List.foldl_cons, ih, BitVec.getLsbD_or, Bool.or_eq_true, or_assoc]
      simp only [List.mem_cons, exists_eq_or_imp]

/-- A bit of a place is that of the owner who now stands there. -/
private theorem getLsbD_moved (fits : newOwners.length ≤ capacity) (place : Nat) {low : Nat}
    (lowLt : low < 2) :
    (moved owners newOwners key).getLsbD (2 * place + low) = true ↔
      ∃ owner, newOwners[place]? = some owner
        ∧ key.getLsbD (2 * owners.idxOf owner + low) = true := by
  rw [moved, getLsbD_foldl_or fun item : StageId × Nat =>
    key.group (owners.idxOf item.1) <<< (2 * item.2)]
  have startsEmpty : ¬ BitVec.getLsbD (0 : OwnerKey) (2 * place + low) = true := by simp
  rw [or_iff_right startsEmpty]
  simp only [BitVec.getLsbD_shiftLeft, getLsbD_group, Bool.and_eq_true, decide_eq_true_eq,
    Bool.not_eq_true', decide_eq_false_iff_not]
  constructor
  · rintro ⟨⟨owner, ownPlace⟩, member, ⟨_, reached⟩, bitSet, lowest⟩
    obtain rfl : ownPlace = place := by omega
    rw [Nat.add_sub_cancel_left] at bitSet
    exact ⟨owner, List.mem_zipIdx_iff_getElem?.mp member, bitSet⟩
  · rintro ⟨owner, atPlace, bitSet⟩
    have placeLt := Nat.lt_of_lt_of_le (List.getElem?_eq_some_iff.mp atPlace).1 fits
    rw [capacity] at placeLt
    refine ⟨(owner, place), List.mem_zipIdx_iff_getElem?.mpr atPlace, ⟨?_, ?_⟩, ?_, ?_⟩
    · omega
    · omega
    · rw [Nat.add_sub_cancel_left]
      exact bitSet
    · omega

theorem readBy_moved (fits : newOwners.length ≤ capacity) (place : Nat) :
    (moved owners newOwners key).ReadBy place ↔
      ∃ owner, newOwners[place]? = some owner ∧ key.ReadBy (owners.idxOf owner) :=
  getLsbD_moved fits place Nat.zero_lt_two

theorem writtenBy_moved (fits : newOwners.length ≤ capacity) (place : Nat) :
    (moved owners newOwners key).WrittenBy place ↔
      ∃ owner, newOwners[place]? = some owner ∧ key.WrittenBy (owners.idxOf owner) :=
  getLsbD_moved fits place Nat.one_lt_two

end OwnerKey

namespace AccessTable

/-- Two tables have the same modes, and the stages that these belong to are of the same
kinds. -/
structure SameModes (table other : AccessTable) (kindOf otherKindOf : StageId → Option StageKind) :
    Prop where
  coherent : table.Coherent
  otherCoherent : other.Coherent
  modeAt_eq : ∀ attr stage, table.modeAt attr stage = other.modeAt attr stage
  kinds_eq : ∀ row ∈ table.rows, kindOf row.stage = otherKindOf row.stage

namespace SameModes

variable {table other : AccessTable} {owners otherOwners : List StageId}
  {kindOf otherKindOf : StageId → Option StageKind} {plan otherPlan : PlacementPlan}

theorem rows_perm (same : table.SameModes other kindOf otherKindOf) :
    table.rows.Perm other.rows :=
  (same.coherent.rows_perm_iff same.otherCoherent).mpr same.modeAt_eq

theorem mem_attributes_congr (same : table.SameModes other kindOf otherKindOf)
    (attr : Attribute) : attr ∈ table.attributes ↔ attr ∈ other.attributes := by
  rw [← contains_iff_mem, ← contains_iff_mem, same.coherent.contains_iff,
    same.otherCoherent.contains_iff]
  simp only [same.modeAt_eq]

theorem symm (same : table.SameModes other kindOf otherKindOf) :
    other.SameModes table otherKindOf kindOf where
  coherent := same.otherCoherent
  otherCoherent := same.coherent
  modeAt_eq attr stage := (same.modeAt_eq attr stage).symm
  kinds_eq row member := (same.kinds_eq row (same.rows_perm.mem_iff.mpr member)).symm

theorem growsTo (same : table.SameModes other kindOf otherKindOf) :
    table.GrowsTo other kindOf otherKindOf where
  coherent := same.coherent
  nextCoherent := same.otherCoherent
  within attr stage flag present := by
    rw [← same.modeAt_eq]
    exact present
  kindsKept row member kind kindEq := (same.kinds_eq row member).symm.trans kindEq

section Plans

variable (same : table.SameModes other kindOf otherKindOf)
  (planned : (Classification.ofTable table owners kindOf).plan = .ok plan)
  (otherPlanned : (Classification.ofTable other otherOwners otherKindOf).plan = .ok otherPlan)

include same planned otherPlanned

theorem isShared_eq (attr : Attribute) : otherPlan.isShared attr = plan.isShared attr := by
  rw [Bool.eq_iff_iff]
  constructor
  · exact same.symm.growsTo.isShared_grows otherPlanned planned
  · exact same.growsTo.isShared_grows planned otherPlanned

theorem isLocal_eq (attr : Attribute) : otherPlan.isLocal attr = plan.isLocal attr := by
  have placedEq : (otherPlan.placement? attr).isSome = (plan.placement? attr).isSome := by
    rw [Bool.eq_iff_iff, PlacementPlan.isSome_placement?_iff, PlacementPlan.isSome_placement?_iff,
      Classification.map_fst_entries otherPlanned, Classification.map_fst_entries planned]
    exact (same.mem_attributes_congr attr).symm
  rw [PlacementPlan.isLocal_eq, PlacementPlan.isLocal_eq, placedEq,
    same.isShared_eq planned otherPlanned]

/-- Owners that change places take their bits along. -/
theorem key?_eq_moved (distinct : owners.Nodup) (perm : owners.Perm otherOwners)
    (kindsEq : ∀ owner ∈ owners, kindOf owner = otherKindOf owner) (attr : Attribute) :
    otherPlan.key? attr = (plan.key? attr).map (OwnerKey.moved owners otherOwners) := by
  have sharedEq := same.isShared_eq planned otherPlanned attr
  rw [PlacementPlan.isShared, PlacementPlan.isShared] at sharedEq
  cases shared : plan.key? attr with
  | none =>
      rw [shared] at sharedEq
      exact Option.isNone_iff_eq_none.mp (by simpa using sharedEq)
  | some key =>
      rw [shared] at sharedEq
      obtain ⟨otherKey, otherShared⟩ := Option.isSome_iff_exists.mp sharedEq
      have otherDistinct := perm.nodup_iff.mp distinct
      have fits := (Classification.settled_of_plan otherPlanned).1
      obtain ⟨readers, writers, _⟩ := same.coherent.places_of_key? distinct planned shared
      obtain ⟨otherReaders, otherWriters, _⟩ :=
        same.otherCoherent.places_of_key? otherDistinct otherPlanned otherShared
      have oldPlace {owner : StageId} {place : Nat} (atPlace : otherOwners[place]? = some owner) :
          owners[owners.idxOf owner]? = some owner ∧ kindOf owner = otherKindOf owner := by
        have isOwner := perm.mem_iff.mpr (List.mem_of_getElem? atPlace)
        exact ⟨List.getElem?_idxOf isOwner, kindsEq owner isOwner⟩
      rw [otherShared, Option.map_some, Option.some.injEq, OwnerKey.eq_iff_places]
      intro place
      rw [otherReaders, otherWriters, OwnerKey.readBy_moved fits, OwnerKey.writtenBy_moved fits]
      simp only [readers, writers]
      constructor
      · apply exists_congr
        intro owner
        apply and_congr_right
        intro atPlace
        obtain ⟨atOldPlace, kindEq⟩ := oldPlace atPlace
        simp [atOldPlace, ReadIn, kindEq, same.modeAt_eq]
      · apply exists_congr
        intro owner
        apply and_congr_right
        intro atPlace
        obtain ⟨atOldPlace, kindEq⟩ := oldPlace atPlace
        simp [atOldPlace, WrittenIn, kindEq, same.modeAt_eq]

end Plans

end SameModes

end AccessTable

end AttributeFlow
