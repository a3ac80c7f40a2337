import AttributeFlow.Proofs.PlacementMeaning

/-!
# When classification fails

A classification looks at every row that is more than a read of the source value.
The stage of such a row must be known, and unless it initializes it must be an
owner.  If all are, and a key can tell the owners apart, there is a plan.
-/

namespace AttributeFlow

namespace AccessProfile

/-- The stage is known, and unless it initializes it has a place among the owners. -/
def Admits (owners : List StageId) (kindOf : StageId → Option StageKind) (stage : StageId) :
    Prop :=
  ∃ kind, kindOf stage = some kind ∧ (kind ≠ .init → stage ∈ owners)

variable {attr : Attribute} {owners : List StageId} {kindOf : StageId → Option StageKind}
  {profile : AccessProfile}

theorem exists_add_iff {stage : StageId} {mode : Mode} :
    (∃ next, add attr owners kindOf profile (stage, mode) = .ok next) ↔
      mode ≠ ∅ ∧ (mode ≠ .readSource → Admits owners kindOf stage) := by
  simp only [add, Mode.isEmpty, beq_iff_eq, Admits]
  by_cases isEmpty : mode = ∅
  · simp [isEmpty]
  by_cases isSource : mode = .readSource
  · have notEmpty : Mode.readSource ≠ ∅ := by decide
    simp [isSource, notEmpty]
  simp only [isEmpty, isSource, if_false, ne_eq, not_false_eq_true, forall_const, true_and]
  have placed := List.isSome_idxOf? (l := owners) (a := stage)
  cases kindOf stage with
  | none => simp
  | some kind =>
      cases kind with
      | init => simp
      | update | output => cases found : owners.idxOf? stage <;> simp [← placed, found]

theorem exists_foldlM_iff {rows : List (StageId × Mode)} :
    (∃ last, rows.foldlM (add attr owners kindOf) profile = .ok last) ↔
      ∀ row ∈ rows, row.2 ≠ ∅ ∧ (row.2 ≠ .readSource → Admits owners kindOf row.1) := by
  induction rows generalizing profile with
  | nil => simp [pure, Except.pure]
  | cons row rows ih =>
      rw [List.forall_mem_cons, ← @exists_add_iff attr _ _ profile, List.foldlM_cons]
      cases add attr owners kindOf profile row with
      | error fault => simp [bind, Except.bind]
      | ok next => simpa [bind, Except.bind] using ih

theorem exists_ofRows_iff (attr : Attribute) {rows : List (StageId × Mode)} :
    (∃ profile, ofRows attr owners kindOf rows = .ok profile) ↔
      ∀ row ∈ rows, row.2 ≠ ∅ ∧ (row.2 ≠ .readSource → Admits owners kindOf row.1) :=
  exists_foldlM_iff

end AccessProfile

namespace Classification

variable {owners : List StageId} {kindOf : StageId → Option StageKind}

theorem fault?_ofViews_eq_none_iff {views : List (Attribute × List (StageId × Mode))} :
    (ofViews owners kindOf views).fault? = none ↔
      ∀ view ∈ views, ∀ row ∈ view.2,
        row.2 ≠ ∅ ∧ (row.2 ≠ .readSource → AccessProfile.Admits owners kindOf row.1) := by
  induction views with
  | nil => simp [ofViews]
  | cons view views ih =>
      obtain ⟨attr, rows⟩ := view
      rw [List.forall_mem_cons, ← AccessProfile.exists_ofRows_iff attr, ofViews]
      cases AccessProfile.ofRows attr owners kindOf rows with
      | error fault => simp
      | ok profile => simpa using ih

theorem plan_of_tooMany {table : AccessTable} (tooMany : OwnerKey.capacity < owners.length) :
    (ofTable table owners kindOf).plan = .error (.tooManyOwners owners.length) := by
  rw [ofTable, if_pos tooMany, plan]

/-- A table has a plan exactly if a key can tell the owners apart and every row that
is more than a read of the source value belongs to a stage that is admitted. -/
theorem exists_plan_iff {table : AccessTable} (coherent : table.Coherent) :
    (∃ plan, (ofTable table owners kindOf).plan = .ok plan) ↔
      owners.length ≤ OwnerKey.capacity
        ∧ ∀ row ∈ table.rows, row.mode ≠ .readSource →
          AccessProfile.Admits owners kindOf row.stage := by
  have finished_iff : (ofViews owners kindOf table.byAttribute).fault? = none ↔
      ∀ row ∈ table.rows, row.mode ≠ .readSource →
        AccessProfile.Admits owners kindOf row.stage := by
    rw [fault?_ofViews_eq_none_iff, coherent.byAttribute_eq]
    simp only [List.mem_map, forall_exists_index, and_imp, forall_apply_eq_imp_iff₂]
    constructor
    · intro admitted row member notSource
      have used : row.attr ∈ table.attributes := by
        rw [coherent.attributes_eq, List.mem_eraseDups]
        exact List.mem_map_of_mem member
      have listed := coherent.mem_modesOf_iff.mpr (coherent.mem_rows_iff.mp member)
      exact (admitted row.attr used _ listed).2 notSource
    · rintro admitted attr _ ⟨stage, mode⟩ listed
      have cell := coherent.mem_modesOf_iff.mp listed
      have member : (⟨stage, attr, mode⟩ : AccessRow) ∈ table.rows := coherent.mem_rows_iff.mpr cell
      exact ⟨cell.2, admitted _ member⟩
  by_cases tooMany : OwnerKey.capacity < owners.length
  · simp [plan_of_tooMany tooMany, Nat.not_le_of_lt tooMany]
  · rw [ofTable, if_neg tooMany, ← finished_iff, plan]
    cases (ofViews owners kindOf table.byAttribute).fault? with
    | some fault => simp
    | none => simpa using tooMany

end Classification

end AttributeFlow
