import AttributeFlow.Dataset.Collection
import AttributeFlow.Proofs.ExpressionDependence

/-!
# What the owners declare

A stage declares its own usages, those of its enabled explicit and of all its
implicit operations, its optional usages, and the accesses that its expressions
on the device of the dataset depend on.  The list that a collection works on
holds exactly what the owners declare, whatever the order.
-/

namespace AttributeFlow

/-- A stage declares a usage to datasets whose expressions are evaluated on a device. -/
inductive Stage.Declares (arena : ExpressionArena) (device : Device) (stage : Stage) :
    Usage → Prop
  | own {usage : Usage} (member : usage ∈ stage.usages) : Declares arena device stage usage
  | explicit {operation : Operation} {usage : Usage} (member : operation ∈ stage.operations)
      (enabled : operation.enabled = true) (declared : usage ∈ operation.usages) :
      Declares arena device stage usage
  | implicit {operation : Operation} {usage : Usage} (member : operation ∈ stage.implicit)
      (declared : usage ∈ operation.usages) : Declares arena device stage usage
  | optional {usage : Usage} (member : usage ∈ stage.optional) :
      Declares arena device stage usage
  | expression {expr : ExpressionId} {access : Access}
      (member : expr ∈ stage.expressions.on device) (depends : arena.DependsOn expr access) :
      Declares arena device stage (.always access)

/-- An owner of the dataset declares a usage to it. -/
def Dataset.Declares (dataset : Dataset) (stages : StageId → Option Stage)
    (arena : ExpressionArena) (id : StageId) (usage : Usage) : Prop :=
  id ∈ dataset.owners
    ∧ ∃ stage, stages id = some stage ∧ stage.Declares arena dataset.kind.device usage

theorem Stage.mem_declared_iff {stage : Stage} {usage : Usage} :
    usage ∈ stage.declared ↔
      usage ∈ stage.usages
        ∨ (∃ operation ∈ stage.operations, operation.enabled = true ∧ usage ∈ operation.usages)
        ∨ ∃ operation ∈ stage.implicit, usage ∈ operation.usages := by
  simp only [declared, active, List.flatMap_append, List.mem_append, List.mem_flatMap,
    List.mem_filter, and_assoc]

theorem Declaration.mem_required_iff {arena : ExpressionArena} {device : Device} {id : StageId}
    {stage : Stage} {declaration : Declaration} :
    declaration ∈ required arena device id stage ↔
      declaration.stage = id ∧ (declaration.usage ∈ stage.declared
        ∨ ∃ expr ∈ stage.expressions.on device, ∃ access ∈ arena.collect expr,
          declaration.usage = .always access) := by
  obtain ⟨declaringStage, usage⟩ := declaration
  simp only [required, List.mem_append, List.mem_map, List.mem_flatMap, mk.injEq]
  constructor
  · rintro (⟨declared, member, rfl, rfl⟩ | ⟨access, ⟨expr, exprMem, accessMem⟩, rfl, rfl⟩)
    · exact ⟨rfl, Or.inl member⟩
    · exact ⟨rfl, Or.inr ⟨expr, exprMem, access, accessMem, rfl⟩⟩
  · rintro ⟨rfl, member | ⟨expr, exprMem, access, accessMem, rfl⟩⟩
    · exact Or.inl ⟨usage, member, rfl, rfl⟩
    · exact Or.inr ⟨access, ⟨expr, exprMem, accessMem⟩, rfl, rfl⟩

theorem Declaration.mem_optional_iff {id : StageId} {stage : Stage} {declaration : Declaration} :
    declaration ∈ optional id stage ↔
      declaration.stage = id ∧ declaration.usage ∈ stage.optional := by
  obtain ⟨declaringStage, usage⟩ := declaration
  simp only [optional, List.mem_map, mk.injEq]
  constructor
  · rintro ⟨declared, member, rfl, rfl⟩
    exact ⟨rfl, member⟩
  · rintro ⟨rfl, member⟩
    exact ⟨usage, member, rfl, rfl⟩

/-- On an arena without cycles, the two parts of the list hold what a stage declares. -/
theorem Stage.declares_iff {arena : ExpressionArena} (acyclic : arena.Acyclic) {device : Device}
    (id : StageId) {stage : Stage} {usage : Usage} :
    stage.Declares arena device usage ↔
      ⟨id, usage⟩ ∈ Declaration.required arena device id stage
        ∨ ⟨id, usage⟩ ∈ Declaration.optional id stage := by
  rw [Declaration.mem_required_iff, Declaration.mem_optional_iff, mem_declared_iff]
  constructor
  · rintro (member | ⟨member, enabled, declared⟩ | ⟨member, declared⟩ | member
      | ⟨member, depends⟩)
    · exact Or.inl ⟨rfl, Or.inl (Or.inl member)⟩
    · exact Or.inl ⟨rfl, Or.inl (Or.inr (Or.inl ⟨_, member, enabled, declared⟩))⟩
    · exact Or.inl ⟨rfl, Or.inl (Or.inr (Or.inr ⟨_, member, declared⟩))⟩
    · exact Or.inr ⟨rfl, member⟩
    · exact Or.inl ⟨rfl, Or.inr ⟨_, member, _, acyclic.mem_collect_iff.mpr depends, rfl⟩⟩
  · rintro (⟨_, (own | ⟨operation, member, enabled, declared⟩ | ⟨operation, member, declared⟩)
      | ⟨expr, member, access, collected, usageEq⟩⟩ | ⟨_, member⟩)
    · exact .own own
    · exact .explicit member enabled declared
    · exact .implicit member declared
    · obtain rfl : usage = .always access := usageEq
      exact .expression member (acyclic.mem_collect_iff.mp collected)
    · exact .optional member

namespace Dataset

variable {dataset : Dataset} {stages : StageId → Option Stage} {arena : ExpressionArena}
  {owners : List (StageId × Stage)} {declarations : List Declaration}

theorem mapM_eq_ok_iff {Item Result : Type} {lookUp : Item → Except Fault Result}
    {items : List Item} {results : List Result} :
    items.mapM lookUp = .ok results ↔
      List.Forall₂ (fun item result => lookUp item = .ok result) items results := by
  induction items generalizing results with
  | nil =>
      rw [List.mapM_nil, List.forall₂_nil_left_iff]
      exact ⟨fun found => (Except.ok.inj found).symm, fun none => none ▸ rfl⟩
  | cons item items ih =>
      rw [List.mapM_cons, List.forall₂_cons_left_iff]
      constructor
      · intro found
        cases first : lookUp item with
        | error fault =>
            rw [first] at found
            cases found
        | ok result =>
            cases others : items.mapM lookUp with
            | error fault =>
                rw [first, others] at found
                cases found
            | ok rest =>
                rw [first, others] at found
                cases found
                exact ⟨result, rest, rfl, ih.mp others, rfl⟩
      · rintro ⟨result, rest, first, others, rfl⟩
        rw [first, ih.mpr others]
        rfl

theorem exists_error_of_mapM_error {Item Result : Type} {lookUp : Item → Except Fault Result}
    {items : List Item} {fault : Fault} (failed : items.mapM lookUp = .error fault) :
    ∃ item ∈ items, lookUp item = .error fault := by
  induction items with
  | nil => cases failed
  | cons item items ih =>
      rw [List.mapM_cons] at failed
      cases first : lookUp item with
      | error firstFault =>
          rw [first] at failed
          cases failed
          exact ⟨item, List.mem_cons_self, first⟩
      | ok result =>
          cases others : items.mapM lookUp with
          | error otherFault =>
              rw [first, others] at failed
              cases failed
              obtain ⟨other, member, otherFailed⟩ := ih others
              exact ⟨other, List.mem_cons_of_mem item member, otherFailed⟩
          | ok rest =>
              rw [first, others] at failed
              cases failed

/-- The owners are found if all of them exist, in their order. -/
theorem ownerStages_eq_ok_iff :
    dataset.ownerStages stages = .ok owners ↔
      List.Forall₂ (fun id owner => id = owner.1 ∧ stages id = some owner.2)
        dataset.owners owners := by
  rw [ownerStages, mapM_eq_ok_iff]
  constructor
  · apply List.Forall₂.imp
    rintro id ⟨ownerId, stage⟩ found
    cases known : stages id with
    | none =>
        rw [known] at found
        cases found
    | some knownStage =>
        rw [known] at found
        cases found
        exact ⟨rfl, rfl⟩
  · apply List.Forall₂.imp
    rintro id ⟨ownerId, stage⟩ ⟨rfl, known⟩
    rw [known]

theorem mem_ownerStages_iff (found : dataset.ownerStages stages = .ok owners) {id : StageId}
    {stage : Stage} : (id, stage) ∈ owners ↔ id ∈ dataset.owners ∧ stages id = some stage := by
  have matching := ownerStages_eq_ok_iff.mp found
  clear found
  generalize dataset.owners = ids at matching ⊢
  induction matching with
  | nil => simp
  | @cons first owner ids owners known _ ih =>
      obtain ⟨ownerId, ownerStage⟩ := owner
      obtain ⟨rfl, firstKnown⟩ := known
      have restIff : (id, stage) ∈ owners ↔ id ∈ ids ∧ stages id = some stage := ih
      rw [List.mem_cons, List.mem_cons, restIff, Prod.mk.injEq, or_and_right]
      apply or_congr_left
      constructor
      · rintro ⟨rfl, rfl⟩
        exact ⟨rfl, firstKnown⟩
      · rintro ⟨rfl, stageKnown⟩
        rw [firstKnown] at stageKnown
        cases stageKnown
        exact ⟨rfl, rfl⟩

theorem exists_stage_of_ownerStages (found : dataset.ownerStages stages = .ok owners)
    {id : StageId} (isOwner : id ∈ dataset.owners) : ∃ stage, stages id = some stage := by
  have matching := ownerStages_eq_ok_iff.mp found
  obtain ⟨place, placeLt, rfl⟩ := List.getElem_of_mem isOwner
  exact ⟨_, (matching.get placeLt (matching.length_eq ▸ placeLt)).2⟩

/-- Looking up the owners fails only at an owner that does not exist. -/
theorem missingOwner_of_ownerStages {fault : Fault}
    (failed : dataset.ownerStages stages = .error fault) :
    ∃ owner ∈ dataset.owners, stages owner = none ∧ fault = .missingOwner owner dataset.id := by
  obtain ⟨owner, member, ownerFailed⟩ := exists_error_of_mapM_error failed
  refine ⟨owner, member, ?_⟩
  cases known : stages owner with
  | none =>
      rw [known] at ownerFailed
      exact ⟨rfl, (Except.error.inj ownerFailed).symm⟩
  | some stage =>
      rw [known] at ownerFailed
      cases ownerFailed

theorem exists_ownerStages_of_declarations_ok
    (declared : dataset.declarations stages arena = .ok declarations) :
    ∃ owners, dataset.ownerStages stages = .ok owners
      ∧ declarations = owners.flatMap (fun (id, stage) =>
          Declaration.required arena dataset.kind.device id stage)
        ++ owners.flatMap fun (id, stage) => Declaration.optional id stage := by
  rw [Dataset.declarations] at declared
  cases found : dataset.ownerStages stages with
  | error fault =>
      rw [found] at declared
      cases declared
  | ok owners =>
      rw [found] at declared
      cases declared
      exact ⟨owners, rfl, rfl⟩

theorem missingOwner_of_declarations {fault : Fault}
    (failed : dataset.declarations stages arena = .error fault) :
    ∃ owner ∈ dataset.owners, stages owner = none ∧ fault = .missingOwner owner dataset.id := by
  rw [Dataset.declarations] at failed
  cases found : dataset.ownerStages stages with
  | error lookUpFault =>
      rw [found] at failed
      cases failed
      exact missingOwner_of_ownerStages found
  | ok owners =>
      rw [found] at failed
      cases failed

/-- A collection works on the two parts of the list of each owner. -/
theorem mem_declarations_iff_listed
    (declared : dataset.declarations stages arena = .ok declarations) {id : StageId}
    {usage : Usage} :
    ⟨id, usage⟩ ∈ declarations ↔
      id ∈ dataset.owners ∧ ∃ stage, stages id = some stage
        ∧ (⟨id, usage⟩ ∈ Declaration.required arena dataset.kind.device id stage
          ∨ ⟨id, usage⟩ ∈ Declaration.optional id stage) := by
  obtain ⟨owners, found, rfl⟩ := exists_ownerStages_of_declarations_ok declared
  rw [List.mem_append, List.mem_flatMap, List.mem_flatMap]
  constructor
  · rintro (⟨⟨owner, stage⟩, member, listed⟩ | ⟨⟨owner, stage⟩, member, listed⟩)
    · have ⟨isOwner, known⟩ := (mem_ownerStages_iff found).mp member
      obtain rfl : id = owner := (Declaration.mem_required_iff.mp listed).1
      exact ⟨isOwner, stage, known, Or.inl listed⟩
    · have ⟨isOwner, known⟩ := (mem_ownerStages_iff found).mp member
      obtain rfl : id = owner := (Declaration.mem_optional_iff.mp listed).1
      exact ⟨isOwner, stage, known, Or.inr listed⟩
  · rintro ⟨isOwner, stage, known, listed⟩
    have member := (mem_ownerStages_iff found).mpr ⟨isOwner, known⟩
    rcases listed with listed | listed
    · exact Or.inl ⟨(id, stage), member, listed⟩
    · exact Or.inr ⟨(id, stage), member, listed⟩

/-- A collection works on exactly what the owners declare. -/
theorem mem_declarations_iff (acyclic : arena.Acyclic)
    (declared : dataset.declarations stages arena = .ok declarations) {id : StageId}
    {usage : Usage} : ⟨id, usage⟩ ∈ declarations ↔ dataset.Declares stages arena id usage := by
  rw [mem_declarations_iff_listed declared, Declares]
  simp only [Stage.declares_iff acyclic id]

end Dataset

end AttributeFlow
