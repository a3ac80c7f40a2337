import AttributeFlow.Dataset.Analysis
import AttributeFlow.Proofs.LeastUse

/-!
# What an analysis depends on

An analysis takes from a dataset only its name, its kind and its owners; table,
plan and mark are made anew.  Of the stages it looks only at the owners.  So a
dataset that an analysis has succeeded on stays as it is when it is analyzed
again, also after changes to stages that are not among its owners.
-/

namespace AttributeFlow

theorem AccessProfile.ofRows_congr {attr : Attribute} {owners : List StageId}
    {kindOf otherKindOf : StageId → Option StageKind} {rows : List (StageId × Mode)}
    (agree : ∀ row ∈ rows, kindOf row.1 = otherKindOf row.1) :
    ofRows attr owners kindOf rows = ofRows attr owners otherKindOf rows := by
  rw [ofRows, ofRows]
  generalize ({ selfInitialized := attr.isSelfInitialized } : AccessProfile) = profile
  induction rows generalizing profile with
  | nil => rfl
  | cons row rows ih =>
      have addEq : add attr owners kindOf profile row = add attr owners otherKindOf profile row := by
        rw [add, add, agree row List.mem_cons_self]
      rw [List.foldlM_cons, List.foldlM_cons, addEq]
      cases add attr owners otherKindOf profile row with
      | error fault => rfl
      | ok next => exact ih (fun other member => agree other (List.mem_cons_of_mem row member)) next

theorem Classification.ofViews_congr {owners : List StageId}
    {kindOf otherKindOf : StageId → Option StageKind}
    {views : List (Attribute × List (StageId × Mode))}
    (agree : ∀ view ∈ views, ∀ row ∈ view.2, kindOf row.1 = otherKindOf row.1) :
    ofViews owners kindOf views = ofViews owners otherKindOf views := by
  induction views with
  | nil => rfl
  | cons view views ih =>
      obtain ⟨attr, rows⟩ := view
      have rowsEq : AccessProfile.ofRows attr owners kindOf rows =
          AccessProfile.ofRows attr owners otherKindOf rows :=
        AccessProfile.ofRows_congr (agree (attr, rows) List.mem_cons_self)
      have restEq := ih fun other member => agree other (List.mem_cons_of_mem _ member)
      rw [ofViews, ofViews, rowsEq, restEq]

/-- A classification looks only at the stages that have rows. -/
theorem Classification.ofTable_congr {table : AccessTable} {owners : List StageId}
    {kindOf otherKindOf : StageId → Option StageKind}
    (agree : ∀ row ∈ table.rows, kindOf row.stage = otherKindOf row.stage) :
    ofTable table owners kindOf = ofTable table owners otherKindOf := by
  rw [ofTable, ofTable]
  congr 1
  apply ofViews_congr
  intro view viewMem row rowMem
  rw [AccessTable.byAttribute, List.mem_map] at viewMem
  obtain ⟨⟨attr, numbers⟩, _, rfl⟩ := viewMem
  obtain ⟨number, _, found⟩ := List.mem_filterMap.mp rowMem
  obtain ⟨tableRow, atNumber, rfl⟩ := Option.map_eq_some_iff.mp found
  exact agree tableRow (List.mem_of_getElem? atNumber)

namespace Dataset

variable {dataset other : Dataset} {stages otherStages : StageId → Option Stage}
  {arena : ExpressionArena} {options : AnalysisOptions} {maxPasses : Option UInt64}

/-- Two datasets have the same name, kind and owners. -/
structure SameOwners (dataset other : Dataset) : Prop where
  id_eq : dataset.id = other.id
  kind_eq : dataset.kind = other.kind
  owners_eq : dataset.owners = other.owners

theorem SameOwners.refl (dataset : Dataset) : dataset.SameOwners dataset :=
  ⟨rfl, rfl, rfl⟩

theorem ownerStages_congr (same : dataset.SameOwners other)
    (agree : ∀ owner ∈ dataset.owners, stages owner = otherStages owner) :
    dataset.ownerStages stages = other.ownerStages otherStages := by
  rw [ownerStages, ownerStages, ← same.id_eq, ← same.owners_eq]
  generalize dataset.owners = owners at agree ⊢
  induction owners with
  | nil => rfl
  | cons owner owners ih =>
      have restEq := ih fun later member => agree later (List.mem_cons_of_mem owner member)
      rw [List.mapM_cons, List.mapM_cons, restEq, agree owner List.mem_cons_self]

theorem collect_congr (same : dataset.SameOwners other)
    (agree : ∀ owner ∈ dataset.owners, stages owner = otherStages owner) :
    dataset.collect stages arena maxPasses = other.collect otherStages arena maxPasses := by
  have declarationsEq : dataset.declarations stages arena =
      other.declarations otherStages arena := by
    rw [declarations, declarations, ownerStages_congr same agree, same.kind_eq]
  rw [collect, collect, declarationsEq, same.id_eq]

/-- Only owners have rows in a table that was collected. -/
theorem mem_owners_of_collect_ok {effort : Effort}
    (collected : (dataset.collect stages arena maxPasses).answer = .ok effort) :
    ∀ row ∈ (dataset.collect stages arena maxPasses).state.rows, row.stage ∈ dataset.owners := by
  obtain ⟨declarations, passes, declared, _, stateEq, _, _⟩ := settled_of_collect_ok collected
  have reached : (AccessTable.afterPasses declarations passes {}).Reached :=
    AccessTable.Reached.empty.afterPasses passes
  have justified : (AccessTable.afterPasses declarations passes {}).Justified
      fun stage usage => ⟨stage, usage⟩ ∈ declarations := by
    apply AccessTable.justified_empty.afterPasses AccessTable.Reached.empty
    exact fun stage usage listed _ => listed
  intro row member
  rw [stateEq, reached.coherent.mem_rows_iff] at member
  obtain ⟨flag, flagSet⟩ := Mode.ne_empty_iff.mp member.2
  rw [← member.1] at flagSet
  obtain ⟨mode, ⟨usage, listed, _⟩, _⟩ := justified row.attr row.stage flag flagSet
  exact ((mem_declarations_iff_listed declared).mp listed).1

/-- The classification of the table of a dataset. -/
def classification (dataset : Dataset) (stages : StageId → Option Stage) : Classification :=
  .ofTable dataset.table dataset.owners fun stage => (stages stage).map Stage.kind

/-- Table and plan are those that the owners give rise to. -/
structure IsCurrent (dataset : Dataset) (stages : StageId → Option Stage)
    (arena : ExpressionArena) (options : AnalysisOptions) : Prop where
  collected : ∃ effort, (dataset.collect stages arena options.maxPasses).answer = .ok effort
  table_eq : (dataset.collect stages arena options.maxPasses).state = dataset.table
  plan_eq : (dataset.classification stages).plan = .ok dataset.plan

theorem IsCurrent.coherent (current : dataset.IsCurrent stages arena options) :
    dataset.table.Coherent := by
  obtain ⟨_, collected⟩ := current.collected
  rw [← current.table_eq]
  exact (reached_of_collect_ok collected).coherent

/-- Only owners have rows in the table of a current dataset. -/
theorem IsCurrent.mem_owners (current : dataset.IsCurrent stages arena options) :
    ∀ row ∈ dataset.table.rows, row.stage ∈ dataset.owners := by
  obtain ⟨_, collected⟩ := current.collected
  rw [← current.table_eq]
  exact mem_owners_of_collect_ok collected

/-- A current dataset stays current as long as its owners do not change. -/
theorem IsCurrent.congr (current : dataset.IsCurrent stages arena options)
    (agree : ∀ owner ∈ dataset.owners, stages owner = otherStages owner) :
    dataset.IsCurrent otherStages arena options := by
  have sameCollect : dataset.collect stages arena options.maxPasses =
      dataset.collect otherStages arena options.maxPasses :=
    collect_congr (SameOwners.refl dataset) agree
  obtain ⟨effort, collected⟩ := current.collected
  have sameClassification : dataset.classification stages =
      dataset.classification otherStages := by
    -- A row belongs to an owner, so the kinds that the classification asks for agree.
    apply Classification.ofTable_congr
    intro row member
    rw [agree row.stage (current.mem_owners row member)]
  exact {
    collected := ⟨effort, sameCollect ▸ collected⟩
    table_eq := sameCollect ▸ current.table_eq
    plan_eq := sameClassification ▸ current.plan_eq }

theorem replan_of_error {fault : Fault}
    (failed : (dataset.classification stages).plan = .error fault) :
    (dataset.replan stages).state = dataset ∧ (dataset.replan stages).answer = .error fault := by
  rw [classification] at failed
  simp only [replan, failed, and_self]

theorem replan_of_ok {plan : PlacementPlan}
    (planned : (dataset.classification stages).plan = .ok plan) :
    (dataset.replan stages).state = { dataset with plan }
      ∧ (dataset.replan stages).answer = .ok () := by
  rw [classification] at planned
  simp only [replan, planned, and_self]

theorem analyze_of_retable_error {fault : Fault}
    (failed : (dataset.markStale.retable stages arena options).answer = .error fault) :
    (dataset.analyze stages arena options).state =
        (dataset.markStale.retable stages arena options).state
      ∧ (dataset.analyze stages arena options).answer = .error fault := by
  simp only [analyze, failed, and_self]

theorem analyze_of_plan_error {effort : Effort} {fault : Fault}
    (retabled : (dataset.markStale.retable stages arena options).answer = .ok effort)
    (failed : ((dataset.markStale.retable stages arena options).state.classification stages).plan =
      .error fault) :
    (dataset.analyze stages arena options).state =
        (dataset.markStale.retable stages arena options).state
      ∧ (dataset.analyze stages arena options).answer = .error fault := by
  obtain ⟨stateEq, answerEq⟩ := replan_of_error failed
  simp only [analyze, retabled, answerEq, stateEq, and_self]

theorem analyze_of_plan_ok {effort : Effort} {plan : PlacementPlan}
    (retabled : (dataset.markStale.retable stages arena options).answer = .ok effort)
    (planned : ((dataset.markStale.retable stages arena options).state.classification stages).plan =
      .ok plan) :
    (dataset.analyze stages arena options).state =
        { (dataset.markStale.retable stages arena options).state with plan, analyzed := true }
      ∧ (dataset.analyze stages arena options).answer = .ok effort := by
  obtain ⟨stateEq, answerEq⟩ := replan_of_ok planned
  simp only [analyze, retabled, answerEq, stateEq, and_self]

/-- An analysis keeps name, kind and owners, and marks the dataset as analyzed only
if it leaves it current. -/
theorem analyze_outcome (dataset : Dataset) (stages : StageId → Option Stage)
    (arena : ExpressionArena) (options : AnalysisOptions) :
    (dataset.analyze stages arena options).state.SameOwners dataset
      ∧ ((dataset.analyze stages arena options).state.analyzed = true →
        (dataset.analyze stages arena options).state.IsCurrent stages arena options) := by
  cases collected : (dataset.markStale.retable stages arena options).answer with
  | error fault =>
      rw [(analyze_of_retable_error collected).1]
      exact ⟨⟨rfl, rfl, rfl⟩, fun impossible => nomatch impossible⟩
  | ok effort =>
      cases planned : ((dataset.markStale.retable stages arena options).state.classification
          stages).plan with
      | error fault =>
          rw [(analyze_of_plan_error collected planned).1]
          exact ⟨⟨rfl, rfl, rfl⟩, fun impossible => nomatch impossible⟩
      | ok plan =>
          rw [(analyze_of_plan_ok collected planned).1]
          exact ⟨⟨rfl, rfl, rfl⟩, fun _ => ⟨⟨effort, collected⟩, rfl, planned⟩⟩

/-- An analysis succeeds if both its parts do. -/
theorem planned_of_analyze_ok {effort : Effort}
    (succeeded : (dataset.analyze stages arena options).answer = .ok effort) :
    (dataset.markStale.retable stages arena options).answer = .ok effort
      ∧ ∃ plan, ((dataset.markStale.retable stages arena options).state.classification stages).plan =
          .ok plan
        ∧ (dataset.analyze stages arena options).state =
          { (dataset.markStale.retable stages arena options).state with plan, analyzed := true } := by
  cases collected : (dataset.markStale.retable stages arena options).answer with
  | error fault => cases (analyze_of_retable_error collected).2.symm.trans succeeded
  | ok spent =>
      cases planned : ((dataset.markStale.retable stages arena options).state.classification
          stages).plan with
      | error fault => cases (analyze_of_plan_error collected planned).2.symm.trans succeeded
      | ok plan =>
          obtain ⟨stateEq, answerEq⟩ := analyze_of_plan_ok collected planned
          exact ⟨answerEq.symm.trans succeeded, plan, rfl, stateEq⟩

/-- An analysis that succeeds leaves the dataset current. -/
theorem isCurrent_of_analyze_ok {effort : Effort}
    (succeeded : (dataset.analyze stages arena options).answer = .ok effort) :
    (dataset.analyze stages arena options).state.IsCurrent stages arena options := by
  obtain ⟨_, _, _, stateEq⟩ := planned_of_analyze_ok succeeded
  apply (dataset.analyze_outcome stages arena options).2
  rw [stateEq]

/-- Analyzing the owners of a current dataset gives the dataset, whatever table and
plan the analysis starts with. -/
theorem IsCurrent.analyze_eq (current : dataset.IsCurrent stages arena options)
    (analyzed : dataset.analyzed = true) (same : other.SameOwners dataset) :
    (other.analyze stages arena options).state = dataset
      ∧ ∃ effort, (other.analyze stages arena options).answer = .ok effort := by
  have sameCollect : other.markStale.collect stages arena options.maxPasses =
      dataset.collect stages arena options.maxPasses :=
    collect_congr ⟨same.id_eq, same.kind_eq, same.owners_eq⟩ fun _ _ => rfl
  obtain ⟨effort, collected⟩ := current.collected
  have retabled : (other.markStale.retable stages arena options).answer = .ok effort := by
    rw [retable, sameCollect]
    exact collected
  have tableEq : (other.markStale.retable stages arena options).state.table = dataset.table := by
    rw [retable, sameCollect]
    exact current.table_eq
  have planned : ((other.markStale.retable stages arena options).state.classification stages).plan =
      .ok dataset.plan := by
    rw [classification, tableEq]
    have ownersEq : (other.markStale.retable stages arena options).state.owners =
        dataset.owners := same.owners_eq
    rw [ownersEq]
    exact current.plan_eq
  obtain ⟨stateEq, answerEq⟩ := analyze_of_plan_ok retabled planned
  refine ⟨?_, effort, answerEq⟩
  rw [stateEq]
  obtain ⟨id, kind, owners, table, plan, mark⟩ := dataset
  obtain ⟨rfl, rfl, rfl⟩ := same
  cases analyzed
  exact congrArg (fun table => Dataset.mk _ _ _ table plan true) tableEq

end Dataset

end AttributeFlow
