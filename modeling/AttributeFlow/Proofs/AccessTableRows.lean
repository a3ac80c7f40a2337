import AttributeFlow.AccessTable
import AttributeFlow.Proofs.ListLookups
import AttributeFlow.Proofs.ModeFlags

/-!
# Rows and index of a table

A table that is built by merging is determined by its rows.  No two rows belong
to the same stage and attribute, no row is without a flag, and the index of
slots is the one that the rows give rise to: each attribute in the order of its
first row, with the numbers of its rows in increasing order.

On such tables merging is insertion into the list of rows, and every view is a
statement about rows.
-/

namespace AttributeFlow

/-- The stage and the attribute of a row. -/
def AccessRow.cell (row : AccessRow) : StageId × Attribute :=
  (row.stage, row.attr)

@[simp]
theorem AccessRow.isFor_iff {attr : Attribute} {stage : StageId} {row : AccessRow} :
    row.isFor attr stage = true ↔ row.stage = stage ∧ row.attr = attr := by
  simp [AccessRow.isFor]

namespace AccessTable

/-- The index that belongs to some rows. -/
def indexOf (rows : List AccessRow) : List (Attribute × List Nat) :=
  (rows.map AccessRow.attr).eraseDups.map fun attr =>
    (attr, rows.findIdxs fun row => row.attr == attr)

/-- Rows and index of the table fit together. -/
structure Coherent (table : AccessTable) : Prop where
  cellsDistinct : (table.rows.map AccessRow.cell).Nodup
  modesPresent : ∀ row ∈ table.rows, row.mode ≠ ∅
  slotsIndex : table.slots = indexOf table.rows

/-- Tables that are built from the empty one by merging. -/
inductive Reached : AccessTable → Prop
  | empty : Reached {}
  | merge {table next : AccessTable} {stage : StageId} {access : Access} {changed : Bool}
      (reached : Reached table) (merged : table.merge stage access = .ok (next, changed)) :
      Reached next

/-- The mode of an attribute and a stage in a list of rows. -/
def modeIn (rows : List AccessRow) (attr : Attribute) (stage : StageId) : Mode :=
  (rows.find? (AccessRow.isFor attr stage)).elim ∅ AccessRow.mode

/-- Add an access of a stage to its row, or as a new last row. -/
def mergeRows (stage : StageId) (access : Access) : List AccessRow → List AccessRow
  | [] => [⟨stage, access.attr, access.mode⟩]
  | row :: rest =>
      if row.isFor access.attr stage then row.widen access.mode :: rest
      else row :: mergeRows stage access rest

theorem modeAt_eq_modeIn (table : AccessTable) (attr : Attribute) (stage : StageId) :
    table.modeAt attr stage = modeIn table.rows attr stage := by
  rw [modeAt, modeIn, cell?, List.find?_eq_bind_findIdx?_getElem?]
  cases table.rows.findIdx? (AccessRow.isFor attr stage) <;> rfl

theorem modeIn_cons (row : AccessRow) (rows : List AccessRow) (attr : Attribute)
    (stage : StageId) :
    modeIn (row :: rows) attr stage =
      if row.isFor attr stage then row.mode else modeIn rows attr stage := by
  rw [modeIn, List.find?_cons]
  cases row.isFor attr stage <;> rfl

/-- Where cells are distinct, the mode of a row is the mode of its cell. -/
theorem modeIn_of_mem {rows : List AccessRow} (distinct : (rows.map AccessRow.cell).Nodup)
    {row : AccessRow} (member : row ∈ rows) : modeIn rows row.attr row.stage = row.mode := by
  induction rows with
  | nil => simp at member
  | cons first rows ih =>
      rw [List.map_cons, List.nodup_cons] at distinct
      rw [modeIn_cons]
      rcases List.mem_cons.mp member with rfl | later
      · simp
      · have other : first.isFor row.attr row.stage = false := by
          rw [Bool.eq_false_iff]
          intro same
          rw [AccessRow.isFor_iff] at same
          apply distinct.1
          have cellEq : first.cell = row.cell := by rw [AccessRow.cell, same.1, same.2]; rfl
          exact cellEq ▸ List.mem_map_of_mem later
        rw [other]
        exact ih distinct.2 later

/-- A cell with a mode has a row. -/
theorem mem_of_modeIn_ne_empty {rows : List AccessRow} {attr : Attribute} {stage : StageId}
    (present : modeIn rows attr stage ≠ ∅) : ⟨stage, attr, modeIn rows attr stage⟩ ∈ rows := by
  induction rows with
  | nil => exact absurd rfl present
  | cons row rows ih =>
      rw [modeIn_cons] at present ⊢
      cases found : row.isFor attr stage with
      | true =>
          rw [AccessRow.isFor_iff] at found
          obtain ⟨rfl, rfl⟩ := found
          exact List.mem_cons_self
      | false =>
          simp only [found] at present ⊢
          exact List.mem_cons_of_mem _ (ih present)

theorem modeIn_mergeRows (rows : List AccessRow) (stage : StageId) (access : Access)
    (attr : Attribute) (other : StageId) :
    modeIn (mergeRows stage access rows) attr other =
      if attr = access.attr ∧ other = stage then modeIn rows attr other ∪ access.mode
      else modeIn rows attr other := by
  induction rows with
  | nil =>
      rw [mergeRows, modeIn_cons]
      by_cases same : attr = access.attr ∧ other = stage
      · obtain ⟨rfl, rfl⟩ := same
        simp [modeIn]
      · have notFor : AccessRow.isFor attr other ⟨stage, access.attr, access.mode⟩ = false := by
          rw [Bool.eq_false_iff]
          intro found
          rw [AccessRow.isFor_iff] at found
          exact same ⟨found.2.symm, found.1.symm⟩
        simp [notFor, same]
  | cons row rows ih =>
      rw [mergeRows]
      by_cases found : row.isFor access.attr stage = true
      · rw [if_pos found, modeIn_cons, modeIn_cons]
        rw [AccessRow.isFor_iff] at found
        obtain ⟨rfl, attrEq⟩ := found
        by_cases same : attr = access.attr ∧ other = row.stage
        · obtain ⟨rfl, rfl⟩ := same
          simp [AccessRow.isFor, AccessRow.widen, attrEq]
        · have notFor : row.isFor attr other = false := by
            rw [Bool.eq_false_iff]
            intro alsoFor
            rw [AccessRow.isFor_iff] at alsoFor
            exact same ⟨by rw [← attrEq, alsoFor.2], alsoFor.1.symm⟩
          have notForWidened : (row.widen access.mode).isFor attr other = false := notFor
          simp [notFor, notForWidened, same]
      · rw [if_neg found, modeIn_cons, modeIn_cons, ih]
        by_cases same : attr = access.attr ∧ other = stage
        · obtain ⟨rfl, rfl⟩ := same
          simp [found]
        · simp only [if_neg same]

theorem map_cell_mergeRows (rows : List AccessRow) (stage : StageId) (access : Access) :
    (mergeRows stage access rows).map AccessRow.cell =
      if (stage, access.attr) ∈ rows.map AccessRow.cell then rows.map AccessRow.cell
      else rows.map AccessRow.cell ++ [(stage, access.attr)] := by
  induction rows with
  | nil => rfl
  | cons row rows ih =>
      rw [mergeRows]
      by_cases found : row.isFor access.attr stage = true
      · rw [if_pos found]
        rw [AccessRow.isFor_iff] at found
        have cellEq : (stage, access.attr) = row.cell := by
          rw [AccessRow.cell, found.1, found.2]
        rw [if_pos (by simp [cellEq])]
        rfl
      · rw [if_neg found, List.map_cons, ih]
        have cellNe : (stage, access.attr) ≠ row.cell := by
          intro cellEq
          rw [AccessRow.cell, Prod.mk.injEq] at cellEq
          exact found (AccessRow.isFor_iff.mpr ⟨cellEq.1.symm, cellEq.2.symm⟩)
        by_cases member : (stage, access.attr) ∈ rows.map AccessRow.cell
        · rw [if_pos member, if_pos (by simpa [cellNe] using member), List.map_cons]
        · rw [if_neg member, if_neg (by simpa [cellNe] using member), List.map_cons,
            List.cons_append]

theorem nodup_cells_mergeRows {rows : List AccessRow}
    (distinct : (rows.map AccessRow.cell).Nodup) (stage : StageId) (access : Access) :
    ((mergeRows stage access rows).map AccessRow.cell).Nodup := by
  rw [map_cell_mergeRows]
  by_cases member : (stage, access.attr) ∈ rows.map AccessRow.cell
  · rw [if_pos member]
    exact distinct
  · rw [if_neg member, ← List.concat_eq_append]
    exact distinct.concat member

theorem modes_mergeRows {rows : List AccessRow} (present : ∀ row ∈ rows, row.mode ≠ ∅)
    (stage : StageId) {access : Access} (accessPresent : access.mode ≠ ∅) :
    ∀ row ∈ mergeRows stage access rows, row.mode ≠ ∅ := by
  induction rows with
  | nil => simpa [mergeRows] using accessPresent
  | cons first rows ih =>
      have firstPresent := present first List.mem_cons_self
      have restPresent := fun row member => present row (List.mem_cons_of_mem first member)
      rw [mergeRows]
      split
      · intro row member
        rcases List.mem_cons.mp member with rfl | later
        · obtain ⟨flag, flagSet⟩ := Mode.ne_empty_iff.mp firstPresent
          exact Mode.ne_empty_of_has
            ((Mode.has_union first.mode access.mode flag).mpr (Or.inl flagSet))
        · exact restPresent row later
      · intro row member
        rcases List.mem_cons.mp member with rfl | later
        · exact firstPresent
        · exact ih restPresent row later

/-- Widening the row that is found, or appending one, is insertion. -/
theorem mergeRows_eq (rows : List AccessRow) (stage : StageId) (access : Access) :
    mergeRows stage access rows =
      match rows.findIdx? (AccessRow.isFor access.attr stage) with
      | some row => rows.modify row (AccessRow.widen access.mode)
      | none => rows ++ [⟨stage, access.attr, access.mode⟩] := by
  induction rows with
  | nil => rfl
  | cons row rows ih =>
      rw [mergeRows, List.findIdx?_cons]
      cases row.isFor access.attr stage with
      | true => rfl
      | false =>
          simp only [Bool.false_eq_true, if_false, ih]
          cases rows.findIdx? (AccessRow.isFor access.attr stage) <;> rfl

private theorem enterSlot_map {attr : Attribute} (row : Nat) {names : List Attribute}
    (distinct : names.Nodup) (rowsOf : Attribute → List Nat) :
    enterSlot attr row (names.map fun name => (name, rowsOf name)) =
      (names ++ if attr ∈ names then [] else [attr]).map fun name =>
        (name, (if name ∈ names then rowsOf name else [])
          ++ if name = attr then [row] else []) := by
  induction names with
  | nil => simp [enterSlot]
  | cons name names ih =>
      rw [List.nodup_cons] at distinct
      rw [List.map_cons, enterSlot]
      by_cases same : name = attr
      · subst same
        have others : ∀ other ∈ names, other ≠ name := by
          rintro other member rfl
          exact distinct.1 member
        simp only [if_pos, List.mem_cons_self, List.append_nil, List.map_cons]
        congr 1
        apply List.map_congr_left
        intro other member
        simp [member, others other member]
      · have attrMem : attr ∈ name :: names ↔ attr ∈ names := by simp [Ne.symm same]
        rw [if_neg same, ih distinct.2]
        simp only [attrMem, List.cons_append, List.map_cons, List.mem_cons_self, if_pos, same,
          if_false, List.append_nil, List.cons.injEq, true_and]
        apply List.map_congr_left
        intro other member
        have otherNe : other ≠ name := by
          rintro rfl
          by_cases attrIn : attr ∈ names
          · exact distinct.1 (by simpa [attrIn] using member)
          · rcases List.mem_append.mp member with early | last
            · exact distinct.1 early
            · exact same (by simpa [attrIn] using last)
        simp [otherNe]

/-- Entering the number of an appended row keeps the index up to date. -/
theorem enterSlot_indexOf (rows : List AccessRow) (row : AccessRow) :
    enterSlot row.attr rows.length (indexOf rows) = indexOf (rows ++ [row]) := by
  rw [indexOf, enterSlot_map rows.length (nodup_eraseDups _), indexOf]
  have namesEq : ((rows ++ [row]).map AccessRow.attr).eraseDups =
      (rows.map AccessRow.attr).eraseDups ++
        if row.attr ∈ (rows.map AccessRow.attr).eraseDups then [] else [row.attr] := by
    rw [List.map_append, List.map_cons, List.map_nil, eraseDups_concat]
  rw [namesEq]
  apply List.map_congr_left
  intro name _
  have absent : name ∉ (rows.map AccessRow.attr).eraseDups →
      rows.findIdxs (fun row => row.attr == name) = [] := by
    intro notMem
    rw [List.findIdxs_eq_nil_iff]
    intro other member
    simp only [List.mem_eraseDups] at notMem
    simp only [beq_eq_false_iff_ne, ne_eq]
    rintro rfl
    exact notMem (List.mem_map_of_mem member)
  rw [List.findIdxs_append, List.findIdxs_singleton, Nat.zero_add]
  have rowNumber : (if name = row.attr then [rows.length] else []) =
      if row.attr == name then [rows.length] else [] := by
    simp only [beq_iff_eq, eq_comm (a := name)]
  by_cases member : name ∈ (rows.map AccessRow.attr).eraseDups
  · rw [if_pos member, rowNumber]
  · rw [if_neg member, absent member, rowNumber]

end AccessTable

end AttributeFlow
