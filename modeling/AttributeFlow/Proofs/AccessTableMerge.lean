import AttributeFlow.Proofs.AccessTableRows

/-!
# Merging into a table

Merging an access into a coherent table does one of three things: it refuses an
access without a mode, it leaves the table as it is because the cell already has
all the flags, or it inserts the access into the rows.  All tables that are
reached by merging are therefore coherent, and their modes, attributes and views
are determined by the rows.
-/

namespace AttributeFlow.AccessTable

/-- The table with some rows and the index that belongs to them. -/
def ofRows (rows : List AccessRow) : AccessTable :=
  { rows, slots := indexOf rows }

theorem indexOf_congr {first second : List AccessRow}
    (sameAttributes : first.map AccessRow.attr = second.map AccessRow.attr) :
    indexOf first = indexOf second := by
  have numbers (rows : List AccessRow) (attr : Attribute) :
      rows.findIdxs (fun row => row.attr == attr) =
        (rows.map AccessRow.attr).findIdxs (· == attr) := by
    rw [List.findIdxs_map]
    rfl
  simp only [indexOf, numbers, sameAttributes]

theorem map_attr_eq (rows : List AccessRow) :
    rows.map AccessRow.attr = (rows.map AccessRow.cell).map Prod.snd := by
  rw [List.map_map]
  rfl

variable {table next : AccessTable} {stage : StageId} {access : Access} {changed : Bool}

/-- A cell that has all flags of some mode has a row. -/
theorem mem_cells_of_includes (present : access.mode ≠ ∅)
    (included : (table.modeAt access.attr stage).includes access.mode = true) :
    (stage, access.attr) ∈ table.rows.map AccessRow.cell := by
  obtain ⟨flag, flagSet⟩ := Mode.ne_empty_iff.mp present
  have cellPresent := Mode.ne_empty_of_has (Mode.includes_iff.mp included flag flagSet)
  rw [modeAt_eq_modeIn] at cellPresent
  exact List.mem_map_of_mem (mem_of_modeIn_ne_empty cellPresent)

namespace Coherent

/-- Widening a row that is there keeps the index. -/
theorem indexOf_mergeRows_of_mem (coherent : table.Coherent)
    (cellMem : (stage, access.attr) ∈ table.rows.map AccessRow.cell) :
    indexOf (mergeRows stage access table.rows) = table.slots := by
  rw [coherent.slotsIndex]
  apply indexOf_congr
  rw [map_attr_eq, map_attr_eq, map_cell_mergeRows, if_pos cellMem]

theorem merge_eq (coherent : table.Coherent) (stage : StageId) (access : Access) :
    table.merge stage access =
      if access.mode = ∅ then .error (.emptyAccess access.attr stage)
      else if (table.modeAt access.attr stage).includes access.mode then .ok (table, false)
      else .ok (ofRows (mergeRows stage access table.rows), true) := by
  have emptyIff : access.mode.isEmpty = true ↔ access.mode = ∅ := by simp [Mode.isEmpty]
  by_cases absent : access.mode = ∅
  · rw [AccessTable.merge, if_pos (emptyIff.mpr absent), if_pos absent]
  rw [AccessTable.merge, if_neg (fun empty => absent (emptyIff.mp empty)), if_neg absent]
  cases found : table.cell? access.attr stage with
  | some row =>
      have rowsEq : mergeRows stage access table.rows =
          table.rows.modify row (AccessRow.widen access.mode) := by
        have numberEq : table.rows.findIdx? (AccessRow.isFor access.attr stage) = some row := found
        rw [mergeRows_eq, numberEq]
      have cellMem : (stage, access.attr) ∈ table.rows.map AccessRow.cell := by
        obtain ⟨rowLt, isFor, _⟩ := List.findIdx?_eq_some_iff_getElem.mp found
        rw [AccessRow.isFor_iff] at isFor
        exact List.mem_map.mpr ⟨_, List.getElem_mem rowLt, by
          rw [AccessRow.cell, isFor.1, isFor.2]⟩
      have slotsEq := coherent.indexOf_mergeRows_of_mem cellMem
      have modeEq : table.modeAt access.attr stage = table.rowMode row := by
        rw [modeAt, found]
        rfl
      simp only [modeEq, ← Mode.union_eq_left_iff]
      rw [ofRows, slotsEq, rowsEq]
  | none =>
      have numberEq : table.rows.findIdx? (AccessRow.isFor access.attr stage) = none := found
      have modeEq : table.modeAt access.attr stage = ∅ := by
        rw [modeAt, found]
        rfl
      have notIncluded : ¬ (∅ : Mode).includes access.mode = true := by
        intro included
        obtain ⟨flag, flagSet⟩ := Mode.ne_empty_iff.mp absent
        exact Mode.not_has_empty flag (Mode.includes_iff.mp included flag flagSet)
      rw [modeEq, if_neg notIncluded, append, ofRows, mergeRows_eq, numberEq,
        ← enterSlot_indexOf, ← coherent.slotsIndex]
      rfl

theorem answer_merge (coherent : table.Coherent) (stage : StageId) (access : Access) :
    (table.merge stage access).map Prod.snd =
      if access.mode = ∅ then .error (.emptyAccess access.attr stage)
      else .ok (!(table.modeAt access.attr stage).includes access.mode) := by
  rw [coherent.merge_eq]
  split
  · rfl
  · split
    next included => rw [included]; rfl
    next lacking => rw [Bool.eq_false_iff.mpr lacking]; rfl

/-- What a merge that is not refused leads to. -/
theorem cases_of_merge_ok (coherent : table.Coherent)
    (merged : table.merge stage access = .ok (next, changed)) :
    access.mode ≠ ∅ ∧
      (((table.modeAt access.attr stage).includes access.mode = true
          ∧ next = table ∧ changed = false)
        ∨ (¬ (table.modeAt access.attr stage).includes access.mode = true
          ∧ next = ofRows (mergeRows stage access table.rows) ∧ changed = true)) := by
  rw [coherent.merge_eq] at merged
  by_cases absent : access.mode = ∅
  · rw [if_pos absent] at merged
    cases merged
  · rw [if_neg absent] at merged
    refine ⟨absent, ?_⟩
    by_cases included : (table.modeAt access.attr stage).includes access.mode = true
    · rw [if_pos included] at merged
      cases merged
      exact Or.inl ⟨included, rfl, rfl⟩
    · rw [if_neg included] at merged
      cases merged
      exact Or.inr ⟨included, rfl, rfl⟩

theorem ofRows_mergeRows (coherent : table.Coherent) (stage : StageId)
    (present : access.mode ≠ ∅) : (ofRows (mergeRows stage access table.rows)).Coherent where
  cellsDistinct := nodup_cells_mergeRows coherent.cellsDistinct stage access
  modesPresent := modes_mergeRows coherent.modesPresent stage present
  slotsIndex := rfl

theorem merge (coherent : table.Coherent)
    (merged : table.merge stage access = .ok (next, changed)) : next.Coherent := by
  rcases coherent.cases_of_merge_ok merged with ⟨present, ⟨_, rfl, _⟩ | ⟨_, rfl, _⟩⟩
  · exact coherent
  · exact coherent.ofRows_mergeRows stage present

theorem modeAt_merge (coherent : table.Coherent)
    (merged : table.merge stage access = .ok (next, changed)) (attr : Attribute)
    (other : StageId) :
    next.modeAt attr other =
      if attr = access.attr ∧ other = stage then table.modeAt attr other ∪ access.mode
      else table.modeAt attr other := by
  rcases coherent.cases_of_merge_ok merged with ⟨_, ⟨included, rfl, _⟩ | ⟨_, rfl, _⟩⟩
  · by_cases same : attr = access.attr ∧ other = stage
    · obtain ⟨rfl, rfl⟩ := same
      rw [if_pos ⟨rfl, rfl⟩, Mode.union_eq_left_iff.mpr included]
    · rw [if_neg same]
  · rw [modeAt_eq_modeIn, modeAt_eq_modeIn]
    exact modeIn_mergeRows table.rows stage access attr other

/-- A cell keeps its place, and a new one goes to the end. -/
theorem map_cell_merge (coherent : table.Coherent)
    (merged : table.merge stage access = .ok (next, changed)) :
    next.rows.map AccessRow.cell =
      if (stage, access.attr) ∈ table.rows.map AccessRow.cell then table.rows.map AccessRow.cell
      else table.rows.map AccessRow.cell ++ [(stage, access.attr)] := by
  rcases coherent.cases_of_merge_ok merged with ⟨present, ⟨included, rfl, _⟩ | ⟨_, rfl, _⟩⟩
  · rw [if_pos (mem_cells_of_includes present included)]
  · exact map_cell_mergeRows table.rows stage access

/-- The table changes exactly if the cell lacks a flag. -/
theorem changed_iff (coherent : table.Coherent)
    (merged : table.merge stage access = .ok (next, changed)) :
    changed = true ↔ ¬ (table.modeAt access.attr stage).includes access.mode = true := by
  rcases coherent.cases_of_merge_ok merged with ⟨_, ⟨included, _, rfl⟩ | ⟨lacking, _, rfl⟩⟩
  · simp [included]
  · simp [lacking]

end Coherent

theorem coherent_empty : ({} : AccessTable).Coherent where
  cellsDistinct := List.nodup_nil
  modesPresent := by simp
  slotsIndex := rfl

theorem Reached.coherent {table : AccessTable} (reached : table.Reached) : table.Coherent := by
  induction reached with
  | empty => exact coherent_empty
  | merge _ merged ih => exact ih.merge merged

/-- The stages that touch an attribute with their modes, in the order of rows. -/
def modesOf (table : AccessTable) (attr : Attribute) : List (StageId × Mode) :=
  (table.rows.filter fun row => row.attr == attr).map fun row => (row.stage, row.mode)

theorem contains_iff_mem {table : AccessTable} {attr : Attribute} :
    table.contains attr = true ↔ attr ∈ table.attributes := by
  rw [contains, slot?, List.findIdx?_isSome, attributes, List.any_eq_true, List.mem_map]
  simp

namespace Coherent

variable {table : AccessTable}

theorem attributes_eq (coherent : table.Coherent) :
    table.attributes = (table.rows.map AccessRow.attr).eraseDups := by
  rw [attributes, coherent.slotsIndex, indexOf, List.map_map]
  exact List.map_id _

theorem nodup_attributes (coherent : table.Coherent) : table.attributes.Nodup := by
  rw [coherent.attributes_eq]
  exact nodup_eraseDups _

/-- The rows of a table are its cells with a mode. -/
theorem mem_rows_iff (coherent : table.Coherent) {row : AccessRow} :
    row ∈ table.rows ↔ table.modeAt row.attr row.stage = row.mode ∧ row.mode ≠ ∅ := by
  rw [modeAt_eq_modeIn]
  constructor
  · intro member
    exact ⟨modeIn_of_mem coherent.cellsDistinct member, coherent.modesPresent row member⟩
  · rintro ⟨modeEq, present⟩
    have member := mem_of_modeIn_ne_empty (modeEq.trans_ne present)
    rwa [modeEq] at member

/-- The modes of an attribute are those of its cells with a mode. -/
theorem mem_modesOf_iff (coherent : table.Coherent) {attr : Attribute} {stage : StageId}
    {mode : Mode} :
    (stage, mode) ∈ table.modesOf attr ↔ table.modeAt attr stage = mode ∧ mode ≠ ∅ := by
  rw [modesOf, List.mem_map]
  constructor
  · rintro ⟨row, listed, same⟩
    rw [List.mem_filter, beq_iff_eq] at listed
    obtain ⟨member, rfl⟩ := listed
    cases same
    exact coherent.mem_rows_iff.mp member
  · intro cell
    have member : (⟨stage, attr, mode⟩ : AccessRow) ∈ table.rows := coherent.mem_rows_iff.mpr cell
    exact ⟨_, List.mem_filter.mpr ⟨member, by simp⟩, rfl⟩

/-- An attribute is contained if some stage touches it. -/
theorem contains_iff (coherent : table.Coherent) {attr : Attribute} :
    table.contains attr = true ↔ ∃ stage, table.modeAt attr stage ≠ ∅ := by
  rw [contains_iff_mem, coherent.attributes_eq, List.mem_eraseDups, List.mem_map]
  constructor
  · rintro ⟨row, member, rfl⟩
    have ⟨modeEq, present⟩ := coherent.mem_rows_iff.mp member
    exact ⟨row.stage, modeEq.trans_ne present⟩
  · rintro ⟨stage, present⟩
    exact ⟨⟨stage, attr, table.modeAt attr stage⟩,
      coherent.mem_rows_iff.mpr ⟨rfl, present⟩, rfl⟩

/-- The view by attributes lists under each attribute its rows in order. -/
theorem byAttribute_eq (coherent : table.Coherent) :
    table.byAttribute = table.attributes.map fun attr => (attr, table.modesOf attr) := by
  have numbered (rows : List AccessRow) (isMember : AccessRow → Bool) :
      (rows.findIdxs isMember).filterMap (rows[·]?) = rows.filter isMember := by
    induction rows with
    | nil => rfl
    | cons row rows ih =>
        have shifted : (rows.findIdxs isMember 1).filterMap ((row :: rows)[·]?) =
            rows.filter isMember := by
          rw [List.findIdxs_start, List.filterMap_map, ← ih]
          rfl
        rw [List.findIdxs_cons, List.filter_cons]
        cases isMember row with
        | true => simpa using shifted
        | false => simpa using shifted
  rw [coherent.attributes_eq, byAttribute, coherent.slotsIndex, indexOf, List.map_map]
  apply List.map_congr_left
  intro attr _
  rw [Function.comp_apply, modesOf, ← numbered, List.map_filterMap]

end Coherent

end AttributeFlow.AccessTable
