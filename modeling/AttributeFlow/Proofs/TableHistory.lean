import AttributeFlow.Proofs.AccessTableViews

/-!
# The history of a table

A table records nothing but the accesses that were merged into it since it was last
cleared, leaving out those that were refused.  It has one row for each pair of a stage and
an attribute among them, in the order in which the pairs were first merged, and the mode of
a row is the union of all modes in which the stage touched the attribute.
-/

namespace AttributeFlow

namespace AccessTable

/-- What is done to a table. -/
inductive Call where
  | merge (stage : StageId) (access : Access)
  | clear

/-- The table after a call.  A refused access leaves it as it is. -/
def perform (table : AccessTable) : Call → AccessTable
  | .merge stage access =>
      match table.merge stage access with
      | .ok (merged, _) => merged
      | .error _ => table
  | .clear => {}

/-- The table after some calls on a new one. -/
def run (calls : List Call) : AccessTable :=
  calls.foldl perform {}

namespace Call

/-- The accesses that were merged and neither refused nor cleared, after a further call. -/
def accept (accesses : List (StageId × Access)) : Call → List (StageId × Access)
  | .merge stage access => if access.mode = ∅ then accesses else accesses ++ [(stage, access)]
  | .clear => []

def accepted (calls : List Call) : List (StageId × Access) :=
  calls.foldl accept []

end Call

/-- The stage and the attribute of an access of a stage. -/
def cellOf (access : StageId × Access) : StageId × Attribute :=
  (access.1, access.2.attr)

/-- The union of the modes in which some accesses of a stage touch an attribute. -/
def mergedMode (accesses : List (StageId × Access)) (attr : Attribute) (stage : StageId) : Mode :=
  ((accesses.filter fun access => cellOf access == (stage, attr)).map (·.2.mode)).foldl (· ∪ ·) ∅

/-- The rows of some accesses: one for each cell, in the order of their first accesses. -/
def firstSeen (accesses : List (StageId × Access)) : List AccessRow :=
  (accesses.map cellOf).eraseDups.map fun cell =>
    ⟨cell.1, cell.2, mergedMode accesses cell.2 cell.1⟩

theorem mergedMode_concat (accesses : List (StageId × Access)) (stage : StageId) (access : Access)
    (attr : Attribute) (other : StageId) :
    mergedMode (accesses ++ [(stage, access)]) attr other =
      if attr = access.attr ∧ other = stage then mergedMode accesses attr other ∪ access.mode
      else mergedMode accesses attr other := by
  have sameCell : cellOf (stage, access) = (other, attr) ↔ attr = access.attr ∧ other = stage := by
    rw [cellOf, Prod.mk.injEq, and_comm, eq_comm, eq_comm (a := stage)]
  rw [mergedMode, List.filter_append, List.map_append, List.foldl_append, mergedMode,
    List.filter_cons, List.filter_nil]
  simp only [beq_iff_eq, sameCell]
  split
  · rfl
  · rfl

/-- Where cells are distinct, rows are determined by their cells and the modes of these. -/
theorem rows_eq_map_cell {rows : List AccessRow} (distinct : (rows.map AccessRow.cell).Nodup) :
    rows = (rows.map AccessRow.cell).map fun cell =>
      ⟨cell.1, cell.2, modeIn rows cell.2 cell.1⟩ := by
  rw [List.map_map]
  symm
  apply (List.map_congr_left _).trans (List.map_id rows)
  intro row member
  exact congrArg (AccessRow.mk row.stage row.attr) (modeIn_of_mem distinct member)

/-- The rows of the table are those of the accesses. -/
structure Records (table : AccessTable) (accesses : List (StageId × Access)) : Prop where
  coherent : table.Coherent
  cells_eq : table.rows.map AccessRow.cell = (accesses.map cellOf).eraseDups
  modeAt_eq : ∀ attr stage, table.modeAt attr stage = mergedMode accesses attr stage

namespace Records

variable {table next : AccessTable} {accesses : List (StageId × Access)} {stage : StageId}
  {access : Access} {changed : Bool}

theorem empty : Records {} [] where
  coherent := coherent_empty
  cells_eq := rfl
  modeAt_eq := fun _ _ => rfl

theorem rows_eq (records : table.Records accesses) : table.rows = firstSeen accesses := by
  rw [rows_eq_map_cell records.coherent.cellsDistinct, records.cells_eq, firstSeen]
  simp only [← modeAt_eq_modeIn, records.modeAt_eq]

/-- A cell that has all flags of some mode has been merged before. -/
theorem seen_of_includes (records : table.Records accesses) (present : access.mode ≠ ∅)
    (included : (mergedMode accesses access.attr stage).includes access.mode = true) :
    cellOf (stage, access) ∈ accesses.map cellOf := by
  rw [← records.modeAt_eq] at included
  have member := mem_cells_of_includes present included
  rw [records.cells_eq] at member
  exact List.mem_eraseDups.mp member

theorem merge (records : table.Records accesses)
    (merged : table.merge stage access = .ok (next, changed)) :
    next.Records (accesses ++ [(stage, access)]) where
  coherent := records.coherent.merge merged
  cells_eq := by
    rw [records.coherent.map_cell_merge merged, records.cells_eq, List.map_append, List.map_cons,
      List.map_nil, eraseDups_concat, cellOf]
    split
    · rw [List.append_nil]
    · rfl
  modeAt_eq := by
    intro attr other
    rw [records.coherent.modeAt_merge merged, mergedMode_concat, records.modeAt_eq]

theorem perform (records : table.Records accesses) (call : Call) :
    (table.perform call).Records (call.accept accesses) := by
  cases call with
  | merge stage access =>
      rw [AccessTable.perform, Call.accept]
      cases merged : table.merge stage access with
      | error fault =>
          rw [if_pos (merge_eq_error_iff.mp merged).1]
          exact records
      | ok outcome =>
          rw [if_neg (records.coherent.cases_of_merge_ok merged).1]
          exact records.merge merged
  | clear => exact empty

theorem foldl (records : table.Records accesses) (calls : List Call) :
    (calls.foldl AccessTable.perform table).Records (calls.foldl Call.accept accesses) := by
  induction calls generalizing table accesses with
  | nil => exact records
  | cons call calls ih => exact ih (records.perform call)

/-- The rows of a table are those of the accesses that it accepted. -/
theorem run (calls : List Call) : (AccessTable.run calls).Records (Call.accepted calls) :=
  empty.foldl calls

end Records

end AccessTable

end AttributeFlow
