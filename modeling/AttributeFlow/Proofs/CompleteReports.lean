import AttributeFlow.Dataset.Report
import AttributeFlow.Proofs.CurrentAnalyses
import AttributeFlow.Proofs.PlacementPartition
import AttributeFlow.Proofs.SharedKeys

/-!
# Complete reports

A report goes through the owners of a dataset, while what is known of the dataset
stands in its table and its plan.  When the dataset is analyzed nothing is left out:
the table has rows of owners only, so the rows that the report shows are those of the
table, and what a shared key says of a place can be seen in the report of the owner
that stands there.
-/

namespace AttributeFlow

/-- The rows that are shown for an owner. -/
def OwnerReport.rows (report : OwnerReport) : List AccessRow :=
  report.accesses.map fun access => ⟨report.stage, access.attr, access.mode⟩

/-- The owner is shown to touch the attribute in a mode that includes some flags. -/
def OwnerReport.Lists (report : OwnerReport) (attr : Attribute) (flags : Mode) : Prop :=
  ∃ access ∈ report.accesses, access.attr = attr ∧ access.mode.includes flags = true

/-- The shared attributes of a report, followed by the local ones. -/
def DatasetReport.attributes (report : DatasetReport) : List Attribute :=
  report.shared.map SharedAttribute.attr ++ report.stageLocals

/-- A report shows every owner, every row and every attribute of a dataset once, and the
keys agree with what it shows of the owners. -/
structure DatasetReport.CompleteFor (report : DatasetReport) (dataset : Dataset) : Prop where
  stages_eq : report.owners.map OwnerReport.stage = dataset.owners
  stages_nodup : (report.owners.map OwnerReport.stage).Nodup
  kinds_known : ∀ owner ∈ report.owners, owner.kind?.isSome = true
  rows_perm : (report.owners.flatMap OwnerReport.rows).Perm dataset.table.rows
  /-- The rows of one owner keep their order. -/
  rows_eq : ∀ owner ∈ report.owners,
    owner.rows = dataset.table.rows.filter fun row => row.stage == owner.stage
  count_attributes : ∀ attr, report.attributes.count attr = if dataset.uses attr then 1 else 0
  readers : ∀ entry ∈ report.shared, ∀ place : Nat,
    entry.key.getLsbD (2 * place) = true ↔
      ∃ owner, report.owners[place]? = some owner ∧ owner.kind? ≠ some .init
        ∧ owner.Lists entry.attr .readCurrent
  writers : ∀ entry ∈ report.shared, ∀ place : Nat,
    entry.key.getLsbD (2 * place + 1) = true ↔
      ∃ owner, report.owners[place]? = some owner ∧ owner.kind? = some .update
        ∧ owner.Lists entry.attr .writeCurrent

namespace AccessTable

variable {table : AccessTable}

theorem map_ofStage (table : AccessTable) (stage : StageId) :
    (table.ofStage stage).map (fun access => (⟨stage, access.attr, access.mode⟩ : AccessRow)) =
      table.rows.filter fun row => row.stage == stage := by
  rw [ofStage, List.map_map]
  refine (List.map_congr_left ?_).trans (List.map_id _)
  intro row member
  have ofStage : row.stage = stage := by simpa using (List.mem_filter.mp member).2
  rw [← ofStage]
  rfl

namespace Coherent

/-- A mode with some flags belongs to an access that its stage is listed with. -/
theorem includes_modeAt_iff (coherent : table.Coherent) {attr : Attribute} {stage : StageId}
    {flags : Mode} (someFlag : flags ≠ ∅) :
    (table.modeAt attr stage).includes flags = true ↔
      ∃ access ∈ table.ofStage stage, access.attr = attr ∧ access.mode.includes flags = true := by
  simp only [ofStage, List.mem_map, List.mem_filter, beq_iff_eq]
  constructor
  · intro included
    obtain ⟨flag, present⟩ := Mode.ne_empty_iff.mp someFlag
    have touched := Mode.ne_empty_of_has (Mode.includes_iff.mp included flag present)
    have member : (⟨stage, attr, table.modeAt attr stage⟩ : AccessRow) ∈ table.rows :=
      coherent.mem_rows_iff.mpr ⟨rfl, touched⟩
    exact ⟨⟨attr, table.modeAt attr stage⟩, ⟨_, ⟨member, rfl⟩, rfl⟩, rfl, included⟩
  · rintro ⟨_, ⟨row, ⟨member, rfl⟩, rfl⟩, rfl, included⟩
    rw [(coherent.mem_rows_iff.mp member).1]
    exact included

end Coherent

end AccessTable

namespace Dataset

variable {dataset : Dataset} {stages : StageId → Option Stage} {arena : ExpressionArena}
  {options : AnalysisOptions}

theorem rows_ownerReport (dataset : Dataset) (stages : StageId → Option Stage) :
    ∀ owner ∈ (dataset.report stages).owners,
      owner.rows = dataset.table.rows.filter fun row => row.stage == owner.stage := by
  intro owner member
  obtain ⟨stage, _, rfl⟩ := List.mem_map.mp member
  exact dataset.table.map_ofStage stage

theorem map_stage_report (dataset : Dataset) (stages : StageId → Option Stage) :
    (dataset.report stages).owners.map OwnerReport.stage = dataset.owners := by
  rw [report, List.map_map]
  exact List.map_id _

/-- What holds of an owner at a place is read off its report. -/
theorem exists_getElem?_owners_report (dataset : Dataset) (stages : StageId → Option Stage)
    (place : Nat) (holds : OwnerReport → Prop) :
    (∃ owner, (dataset.report stages).owners[place]? = some owner ∧ holds owner) ↔
      ∃ stage, dataset.owners[place]? = some stage
        ∧ holds ⟨stage, (stages stage).map Stage.kind, dataset.table.ofStage stage⟩ := by
  rw [report, List.getElem?_map]
  cases dataset.owners[place]? with
  | none => simp
  | some stage => simp

namespace IsCurrent

theorem map_fst_entries (current : dataset.IsCurrent stages arena options) :
    dataset.plan.entries.map Prod.fst = dataset.table.attributes :=
  Classification.map_fst_entries current.plan_eq

theorem rows_report_perm (current : dataset.IsCurrent stages arena options)
    (distinct : dataset.owners.Nodup) :
    ((dataset.report stages).owners.flatMap OwnerReport.rows).Perm dataset.table.rows := by
  have shown := current.coherent.flatMap_rows_perm AccessRow.stage distinct current.mem_owners
  rw [← map_stage_report dataset stages, List.flatMap_map] at shown
  rwa [List.flatMap_congr (rows_ownerReport dataset stages)]

/-- An attribute that is used has one entry, which is either shared or local. -/
theorem count_attributes_report (current : dataset.IsCurrent stages arena options)
    (attr : Attribute) :
    (dataset.report stages).attributes.count attr = if dataset.uses attr then 1 else 0 := by
  have attributesEq : (dataset.report stages).attributes =
      dataset.plan.shared.map Prod.fst ++ dataset.plan.stageLocals := by
    rw [DatasetReport.attributes, report, List.map_map]
    rfl
  have perm : (dataset.report stages).attributes.Perm dataset.table.attributes := by
    rw [attributesEq, ← current.map_fst_entries]
    exact List.perm_append_comm.trans dataset.plan.stageLocals_append_shared_perm
  have usesIff : dataset.uses attr = true ↔ attr ∈ dataset.table.attributes := by
    rw [← current.coherent.unionMode_ne_empty_iff, uses, unionMode, Mode.isEmpty,
      Bool.not_eq_true', beq_eq_false_iff_ne]
  rw [perm.count_eq, current.coherent.nodup_attributes.count]
  simp only [usesIff]

/-- The bits of a shared key are those that the reports of the owners call for. -/
theorem key_report (current : dataset.IsCurrent stages arena options)
    (distinct : dataset.owners.Nodup) {entry : SharedAttribute}
    (shown : entry ∈ (dataset.report stages).shared) (place : Nat) :
    (entry.key.getLsbD (2 * place) = true ↔
        ∃ owner, (dataset.report stages).owners[place]? = some owner ∧ owner.kind? ≠ some .init
          ∧ owner.Lists entry.attr .readCurrent)
      ∧ (entry.key.getLsbD (2 * place + 1) = true ↔
        ∃ owner, (dataset.report stages).owners[place]? = some owner
          ∧ owner.kind? = some .update ∧ owner.Lists entry.attr .writeCurrent) := by
  obtain ⟨⟨attr, key⟩, listed, rfl⟩ := List.mem_map.mp shown
  have distinctEntries : (dataset.plan.entries.map Prod.fst).Nodup :=
    current.map_fst_entries ▸ current.coherent.nodup_attributes
  have shared := (PlacementPlan.key?_eq_some_iff distinctEntries).mpr listed
  obtain ⟨readers, writers, _⟩ :=
    current.coherent.places_of_key? distinct current.plan_eq shared
  rw [exists_getElem?_owners_report, exists_getElem?_owners_report]
  constructor
  · refine (readers place).trans ?_
    simp only [AccessTable.ReadIn,
      current.coherent.includes_modeAt_iff (by decide : Mode.readCurrent ≠ ∅)]
    rfl
  · refine (writers place).trans ?_
    simp only [AccessTable.WrittenIn,
      current.coherent.includes_modeAt_iff (by decide : Mode.writeCurrent ≠ ∅)]
    rfl

/-- The report of a dataset that is current is complete, if its owners are distinct and
exist. -/
theorem report_completeFor (current : dataset.IsCurrent stages arena options)
    (distinct : dataset.owners.Nodup)
    (ownersExist : ∀ owner ∈ dataset.owners, ∃ stage, stages owner = some stage) :
    (dataset.report stages).CompleteFor dataset where
  stages_eq := map_stage_report dataset stages
  stages_nodup := (map_stage_report dataset stages).symm ▸ distinct
  kinds_known := by
    intro owner member
    obtain ⟨name, isOwner, rfl⟩ := List.mem_map.mp member
    obtain ⟨stage, known⟩ := ownersExist name isOwner
    simp [known]
  rows_perm := current.rows_report_perm distinct
  rows_eq := rows_ownerReport dataset stages
  count_attributes := current.count_attributes_report
  readers _ shown place := (current.key_report distinct shown place).1
  writers _ shown place := (current.key_report distinct shown place).2

end IsCurrent

end Dataset

namespace Effect

/-- Whatever has been done to an effect, the report of a dataset that counts as analyzed
is complete, if no stage was added under a name in use.  A run that adds fewer stages than
there are names adds none in this way. -/
theorem reports_complete (options : AnalysisOptions) (actions : List Action) :
    (actions.countP Action.insertsStage < 2 ^ 32 → (empty options).NamesFresh actions)
      ∧ ((empty options).NamesFresh actions →
        let effect := (empty options).run actions
        ∀ dataset ∈ effect.datasets, dataset.analyzed = true →
          (dataset.report effect.stage?).CompleteFor dataset) := by
  constructor
  · intro enoughNames
    apply (consistent_empty options).namesFresh
    have counter : (empty options).nextStage.toNat = 0 := rfl
    omega
  · intro fresh effect dataset member analyzed
    have linked : effect.Linked := (linked_empty options).run actions
    have allCurrent : effect.AnalysesCurrent :=
      (analysesCurrent_empty options).run (linked_empty options) fresh
    obtain ⟨place, found⟩ := List.mem_iff_getElem?.mp member
    have distinct := linked.distinct place
    rw [ownersAt_of_getElem? found] at distinct
    exact (allCurrent place dataset found analyzed).report_completeFor distinct
      fun owner isOwner => linked.exists_stage found isOwner

/-- A reader is moved away and back, so that it is the last owner, behind a stage that
touches nothing. -/
theorem reports_complete_moves :
    let writer : Stage := { kind := .init, usages := [.always (.write .color)] }
    let reader : Stage :=
      { kind := .update
        usages := [.whenUsed (.read .alpha) .color, .always (.readWrite .color)] }
    let idle : Stage := { kind := .output }
    let actions : List Action :=
      [.createDataset ⟨some .particle⟩, .createDataset ⟨some .spawnEvent⟩, .insertStage writer,
        .insertStage reader, .insertStage idle, .assign ⟨0⟩ (some ⟨0⟩), .assign ⟨1⟩ (some ⟨0⟩),
        .analyze ⟨0⟩, .assign ⟨1⟩ (some ⟨1⟩), .assign ⟨2⟩ (some ⟨0⟩), .assign ⟨1⟩ (some ⟨0⟩),
        .analyzeStale, .createDataset ⟨none⟩, .eraseStage ⟨7⟩]
    let effect := (empty {}).run actions
    actions.countP Action.insertsStage < 2 ^ 32
      ∧ ∃ dataset ∈ effect.datasets, dataset.analyzed = true
      ∧ dataset.report effect.stage? =
        { dataset := ⟨0⟩
          kind := .particle
          analyzed := true
          owners :=
            [⟨⟨0⟩, some .init, [.write .color]⟩, ⟨⟨2⟩, some .output, []⟩,
              ⟨⟨1⟩, some .update, [.readWrite .color, .read .alpha]⟩]
          shared := [⟨.color, 48⟩]
          stageLocals := [.alpha] }
      ∧ (dataset.report effect.stage?).CompleteFor dataset := by
  intro writer reader idle actions effect
  have enoughNames : actions.countP Action.insertsStage < 2 ^ 32 := by decide
  have complete := reports_complete {} actions
  have found : (effect.dataset? ⟨0⟩).map Dataset.analyzed = some true := by decide
  obtain ⟨dataset, datasetEq, analyzed⟩ := Option.map_eq_some_iff.mp found
  have member : dataset ∈ effect.datasets := List.mem_of_getElem? datasetEq
  refine ⟨enoughNames, dataset, member, analyzed, ?_,
    complete.2 (complete.1 enoughNames) dataset member analyzed⟩
  have reportEq := congrArg (Option.map fun dataset => dataset.report effect.stage?) datasetEq
  exact Option.some.inj (reportEq.symm.trans (by decide))

/-- Add a stage and erase it again, once for each of some names. -/
def rounds (stage : Stage) (first count : Nat) : List Action :=
  (List.range' first count).flatMap fun name =>
    [.insertStage stage, .eraseStage ⟨UInt32.ofNat name⟩]

variable {effect : Effect}

/-- A stage that is erased at once leaves nothing but its name behind. -/
theorem eraseStage_insertStage (unused : effect.entry? ⟨effect.nextStage⟩ = none)
    (stage : Stage) :
    ((effect.insertStage stage).1.eraseStage ⟨effect.nextStage⟩).1 =
      { effect with nextStage := effect.nextStage + 1 } := by
  have unassigned : (effect.insertStage stage).1.datasetOf? ⟨effect.nextStage⟩ = none := by
    rw [(SameLinks.insertStage effect stage).datasetOf?_eq, datasetOf?, unused, Option.bind_none]
  have entriesKept : effect.entries.filter (fun entry => entry.id != ⟨effect.nextStage⟩) =
      effect.entries := by
    unfold entry? at unused
    rw [List.filter_eq_self]
    simpa using unused
  rw [eraseStage, withdraw_of_unassigned unassigned, insertStage, entriesWith, unused]
  simp [entriesKept]

theorem run_rounds (stage : Stage) {first count : Nat}
    (counter : effect.nextStage = UInt32.ofNat first)
    (unused : ∀ name, first ≤ name → name < first + count →
      effect.entry? ⟨UInt32.ofNat name⟩ = none) :
    effect.run (rounds stage first count) =
      { effect with nextStage := UInt32.ofNat (first + count) } := by
  induction count generalizing effect first with
  | zero =>
      rw [Nat.add_zero, ← counter]
      rfl
  | succ count ih =>
      have firstUnused := unused first (Nat.le_refl _) (by omega)
      rw [← counter] at firstUnused
      have nextCounter : effect.nextStage + 1 = UInt32.ofNat (first + 1) := by
        rw [counter, UInt32.ofNat_add]
        rfl
      have round : effect.run [.insertStage stage, .eraseStage ⟨UInt32.ofNat first⟩] =
          { effect with nextStage := effect.nextStage + 1 } := by
        rw [← counter]
        exact eraseStage_insertStage firstUnused stage
      have later := @ih { effect with nextStage := effect.nextStage + 1 } (first + 1) nextCounter
        fun name firstLt nameLt => unused name (by omega) (by omega)
      rw [rounds, List.range'_succ, List.flatMap_cons, run_append, round, ← rounds, later,
        Nat.add_assoc, Nat.add_comm 1]

/-- All other names are given while the first stage owns an analyzed dataset.  The next stage
gets the name of the owner and takes its place, and the key says that a stage reads which is
of the first kind now. -/
theorem report_incomplete_after_reuse :
    let owner : Stage := { kind := .update, usages := [.always (.readWrite .color)] }
    let opening : List Action :=
      [.createDataset ⟨some .particle⟩, .insertStage owner, .assign ⟨0⟩ (some ⟨0⟩), .analyze ⟨0⟩]
    let effect := (empty {}).run
      (opening ++ rounds { kind := .output } 1 (2 ^ 32 - 1) ++ [.insertStage { kind := .init }])
    let dataset : Dataset :=
      { id := ⟨0⟩, kind := .particle, owners := [⟨0⟩]
        table := { rows := [⟨⟨0⟩, .color, .readWriteCurrent⟩], slots := [(.color, [0])] }
        plan := ⟨[(.color, .shared 3)]⟩, analyzed := true }
    effect.datasets = [dataset]
      ∧ dataset.analyzed = true
      ∧ dataset.report effect.stage? =
        { dataset := ⟨0⟩
          kind := .particle
          analyzed := true
          owners := [⟨⟨0⟩, some .init, [.readWrite .color]⟩]
          shared := [⟨.color, 3⟩]
          stageLocals := [] }
      ∧ ¬ (dataset.report effect.stage?).CompleteFor dataset := by
  intro owner opening effect dataset
  have opened : (empty {}).run opening =
      { entries := [⟨⟨0⟩, owner, some ⟨0⟩⟩], datasets := [dataset], nextStage := 1 } := by decide
  have reused : effect =
      { entries := [⟨⟨0⟩, { kind := .init }, some ⟨0⟩⟩], datasets := [dataset], nextStage := 1 } := by
    dsimp only [effect]
    rw [run_append, run_append, opened, run_rounds _ rfl]
    · decide
    · intro name nameGe nameLt
      have different : (0 : UInt32) ≠ UInt32.ofNat name := by
        intro same
        have sameNat := congrArg UInt32.toNat same
        rw [UInt32.toNat_ofNat_of_lt' (by omega)] at sameNat
        simp at sameNat
        omega
      simp [different, entry?]
  have reportEq : dataset.report effect.stage? =
      { dataset := ⟨0⟩
        kind := .particle
        analyzed := true
        owners := [⟨⟨0⟩, some .init, [.readWrite .color]⟩]
        shared := [⟨.color, 3⟩]
        stageLocals := [] } := by
    rw [reused]
    decide
  refine ⟨congrArg Effect.datasets reused, rfl, reportEq, ?_⟩
  rw [reportEq]
  intro complete
  obtain ⟨shown, shownFound, notInit, _⟩ :=
    (complete.readers ⟨.color, 3⟩ (by decide) 0).mp (by decide)
  cases shownFound
  exact notInit rfl

end Effect

end AttributeFlow
