import AttributeFlow.Proofs.TableHistory

/-!
# Tables with indexes

A table may keep two indexes beside its rows and slots: one that leads from a cell to the
number of its row, and one that leads from an attribute to the place of its slot.  Merging
then follows the indexes instead of searching rows and slots, and an index that led nowhere
would stop it.

Both indexes are at all times what a search would find.  Hence merging by indexes never
stops and does the same as merging by searching, whatever has been merged and cleared before.
-/

namespace AttributeFlow

/-- A table with indexes of its rows and slots. -/
structure IndexedTable where
  rows : List AccessRow := []
  slots : List (Attribute × List Nat) := []
  /-- The number of the row of a cell. -/
  cells : StageId × Attribute → Option Nat := fun _ => none
  /-- The place of the slot of an attribute. -/
  places : Attribute → Option Nat := fun _ => none

namespace IndexedTable

/-- Add a mode to the row of a number, which must exist, and say whether the row changed. -/
def widen? (table : IndexedTable) (number : Nat) (mode : Mode) : Option (IndexedTable × Bool) :=
  (table.rows[number]?).map fun row =>
    if row.mode ∪ mode = row.mode then (table, false)
    else ({ table with rows := table.rows.set number (row.widen mode) }, true)

/-- Append a row, and let the index lead from its cell to it. -/
def push (table : IndexedTable) (row : AccessRow) : IndexedTable :=
  { table with
    rows := table.rows ++ [row]
    cells := fun cell => if cell = row.cell then some table.rows.length else table.cells cell }

/-- Enter the number of a row in the slot of its attribute.  The slot must exist if the
index leads to it, and becomes a new last one otherwise. -/
def enter? (table : IndexedTable) (attr : Attribute) (number : Nat) : Option IndexedTable :=
  match table.places attr with
  | some place =>
      (table.slots[place]?).map fun slot =>
        { table with slots := table.slots.set place (slot.1, slot.2 ++ [number]) }
  | none =>
      some { table with
        slots := table.slots ++ [(attr, [number])]
        places := fun other =>
          if other = attr then some table.slots.length else table.places other }

/-- Merge an access of a stage by following the indexes. -/
def merge? (table : IndexedTable) (stage : StageId) (access : Access) :
    Option (IndexedTable × Except Fault Bool) :=
  if access.mode.isEmpty then some (table, .error (.emptyAccess access.attr stage))
  else
    match table.cells (stage, access.attr) with
    | some number =>
        (table.widen? number access.mode).map fun (widened, changed) => (widened, .ok changed)
    | none =>
        ((table.push ⟨stage, access.attr, access.mode⟩).enter? access.attr table.rows.length).map
          fun entered => (entered, .ok true)

def perform? (table : IndexedTable) : AccessTable.Call → Option IndexedTable
  | .merge stage access => (table.merge? stage access).map Prod.fst
  | .clear => some {}

/-- The table after some calls on a new one, unless an index led nowhere. -/
def run? (calls : List AccessTable.Call) : Option IndexedTable :=
  calls.foldlM perform? {}

/-- The indexes lead to what a search in the table finds. -/
structure Indexes (indexed : IndexedTable) (table : AccessTable) : Prop where
  rows_eq : indexed.rows = table.rows
  slots_eq : indexed.slots = table.slots
  cells_eq : ∀ stage attr, indexed.cells (stage, attr) = table.cell? attr stage
  places_eq : ∀ attr, indexed.places attr = table.slot? attr

end IndexedTable

namespace AccessTable

variable {table : AccessTable}

theorem cell?_eq (table : AccessTable) (attr : Attribute) (stage : StageId) :
    table.cell? attr stage = (table.rows.map AccessRow.cell).idxOf? (stage, attr) := by
  rw [List.idxOf?, List.findIdx?_map]
  rfl

theorem slot?_eq (table : AccessTable) (attr : Attribute) :
    table.slot? attr = table.attributes.idxOf? attr := by
  rw [attributes, List.idxOf?, List.findIdx?_map]
  rfl

/-- Entering a number adds it to the slot that is found, or appends a slot. -/
theorem enterSlot_eq (attr : Attribute) (number : Nat) (slots : List (Attribute × List Nat)) :
    enterSlot attr number slots =
      match slots.findIdx? fun (name, _) => name == attr with
      | some place => slots.modify place fun slot => (slot.1, slot.2 ++ [number])
      | none => slots ++ [(attr, [number])] := by
  induction slots with
  | nil => rfl
  | cons slot slots ih =>
      obtain ⟨name, numbers⟩ := slot
      rw [enterSlot, List.findIdx?_cons]
      by_cases same : name = attr
      · simp [same]
      · have notFound : (name == attr) = false := by simpa using same
        simp only [if_neg same, notFound, Bool.false_eq_true, if_false, ih]
        cases slots.findIdx? fun (name, _) => name == attr <;> rfl

end AccessTable

namespace IndexedTable.Indexes

variable {indexed : IndexedTable} {table : AccessTable} {stage : StageId} {attr : Attribute}

theorem empty : Indexes {} {} :=
  ⟨rfl, rfl, fun _ _ => rfl, fun _ => rfl⟩

/-- A row may be changed as long as it stays the row of its cell. -/
theorem setRow (indexes : indexed.Indexes table) {number : Nat} {old new : AccessRow}
    (found : table.rows[number]? = some old) (cellEq : new.cell = old.cell) :
    Indexes { indexed with rows := indexed.rows.set number new }
      { table with rows := table.rows.set number new } where
  rows_eq := congrArg (List.set · number new) indexes.rows_eq
  slots_eq := indexes.slots_eq
  cells_eq := by
    intro stage attr
    dsimp only
    rw [indexes.cells_eq, AccessTable.cell?_eq, AccessTable.cell?_eq, map_set_of_key found cellEq]
  places_eq := indexes.places_eq

theorem push (indexes : indexed.Indexes table) {row : AccessRow}
    (isNew : table.cell? row.attr row.stage = none) :
    (indexed.push row).Indexes { table with rows := table.rows ++ [row] } where
  rows_eq := congrArg (· ++ [row]) indexes.rows_eq
  slots_eq := indexes.slots_eq
  cells_eq := by
    intro stage attr
    have cellNew : (table.rows.map AccessRow.cell).idxOf? row.cell = none :=
      (table.cell?_eq row.attr row.stage).symm.trans isNew
    rw [AccessTable.cell?_eq, List.map_append, List.map_singleton, idxOf?_concat cellNew,
      List.length_map, ← AccessTable.cell?_eq, ← indexes.cells_eq, ← indexes.rows_eq]
    rfl
  places_eq := indexes.places_eq

theorem enter (indexes : indexed.Indexes table) (attr : Attribute) (number : Nat) :
    ∃ next, indexed.enter? attr number = some next
      ∧ next.Indexes { table with slots := AccessTable.enterSlot attr number table.slots } := by
  rw [enter?, indexes.places_eq]
  cases found : table.slot? attr with
  | some place =>
      have foundSlot : (table.slots.findIdx? fun (name, _) => name == attr) = some place := found
      obtain ⟨placeLt, _⟩ := List.findIdx?_eq_some_iff_getElem.mp foundSlot
      have atPlace := List.getElem?_eq_getElem placeLt
      have enteredEq : AccessTable.enterSlot attr number table.slots =
          table.slots.set place (table.slots[place].1, table.slots[place].2 ++ [number]) := by
        rw [AccessTable.enterSlot_eq, foundSlot]
        exact modify_eq_set atPlace _
      have attributesEq : (table.slots.set place
          (table.slots[place].1, table.slots[place].2 ++ [number])).map Prod.fst =
            table.attributes :=
        map_set_of_key atPlace rfl
      dsimp only
      rw [indexes.slots_eq, atPlace, enteredEq]
      refine ⟨_, rfl, indexes.rows_eq, rfl, indexes.cells_eq, ?_⟩
      intro other
      rw [AccessTable.slot?_eq, AccessTable.attributes, attributesEq, ← AccessTable.slot?_eq]
      exact indexes.places_eq other
  | none =>
      have foundNone : (table.slots.findIdx? fun (name, _) => name == attr) = none := found
      have enteredEq : AccessTable.enterSlot attr number table.slots =
          table.slots ++ [(attr, [number])] := by
        rw [AccessTable.enterSlot_eq, foundNone]
      have attrNew : table.attributes.idxOf? attr = none :=
        (table.slot?_eq attr).symm.trans found
      rw [indexes.slots_eq, enteredEq]
      refine ⟨_, rfl, indexes.rows_eq, rfl, indexes.cells_eq, ?_⟩
      intro other
      have placeEq := idxOf?_concat attrNew other
      rw [← AccessTable.slot?_eq, ← indexes.places_eq, AccessTable.attributes, List.length_map]
        at placeEq
      rw [AccessTable.slot?_eq, AccessTable.attributes, List.map_append]
      exact placeEq.symm

/-- Merging by indexes does not stop and does what merging by searching does. -/
theorem merge (indexes : indexed.Indexes table) (stage : StageId) (access : Access) :
    ∃ next, indexed.merge? stage access = some (next, (table.merge stage access).map Prod.snd)
      ∧ next.Indexes (table.perform (.merge stage access)) := by
  rw [merge?, AccessTable.perform, AccessTable.merge, indexes.cells_eq]
  cases absent : access.mode.isEmpty with
  | true => exact ⟨indexed, rfl, indexes⟩
  | false =>
      cases found : table.cell? access.attr stage with
      | none =>
          have pushed : (indexed.push ⟨stage, access.attr, access.mode⟩).Indexes _ :=
            indexes.push found
          obtain ⟨next, entered, nextIndexes⟩ := pushed.enter access.attr indexed.rows.length
          dsimp only
          rw [entered]
          refine ⟨next, rfl, ?_⟩
          rw [indexes.rows_eq] at nextIndexes
          exact nextIndexes
      | some number =>
          obtain ⟨numberLt, _⟩ := List.findIdx?_eq_some_iff_getElem.mp found
          have atNumber := List.getElem?_eq_getElem numberLt
          have modeEq : table.rowMode number = table.rows[number].mode := by
            rw [AccessTable.rowMode, atNumber, Option.elim_some]
          dsimp only
          rw [widen?, indexes.rows_eq, atNumber, modeEq]
          by_cases absorbed : table.rows[number].mode ∪ access.mode = table.rows[number].mode
          · simp only [Option.map_some, if_pos absorbed, Bool.false_eq_true, if_false]
            exact ⟨indexed, rfl, indexes⟩
          · simp only [Option.map_some, if_neg absorbed, Bool.false_eq_true, if_false]
            refine ⟨_, rfl, ?_⟩
            rw [modify_eq_set atNumber]
            have sameCell : (table.rows[number].widen access.mode).cell = table.rows[number].cell :=
              rfl
            have widened := indexes.setRow atNumber sameCell
            rw [indexes.rows_eq] at widened
            exact widened

theorem perform (indexes : indexed.Indexes table) (call : AccessTable.Call) :
    ∃ next, indexed.perform? call = some next ∧ next.Indexes (table.perform call) := by
  cases call with
  | merge stage access =>
      obtain ⟨next, merged, nextIndexes⟩ := indexes.merge stage access
      exact ⟨next, congrArg (Option.map Prod.fst) merged, nextIndexes⟩
  | clear => exact ⟨{}, rfl, empty⟩

theorem foldl (indexes : indexed.Indexes table) (calls : List AccessTable.Call) :
    ∃ next, calls.foldlM perform? indexed = some next
      ∧ next.Indexes (calls.foldl AccessTable.perform table) := by
  induction calls generalizing indexed table with
  | nil => exact ⟨indexed, rfl, indexes⟩
  | cons call calls ih =>
      obtain ⟨next, performed, nextIndexes⟩ := indexes.perform call
      rw [List.foldlM_cons, performed]
      exact ih nextIndexes

/-- Whatever is done to a table, its indexes lead to what a search finds. -/
theorem run (calls : List AccessTable.Call) :
    ∃ indexed, run? calls = some indexed ∧ indexed.Indexes (AccessTable.run calls) :=
  empty.foldl calls

end IndexedTable.Indexes

namespace IndexedTable

/-- Rows, slots and indexes fit together, so that every number is in bounds. -/
structure Sound (table : IndexedTable) : Prop where
  /-- The index of cells leads from each cell with a row to the number of this row. -/
  cells_iff : ∀ stage attr number, table.cells (stage, attr) = some number ↔
    ∃ mode, table.rows[number]? = some ⟨stage, attr, mode⟩
  /-- The index of places leads from each attribute with a slot to the place of this slot. -/
  places_iff : ∀ attr place, table.places attr = some place ↔
    ∃ numbers, table.slots[place]? = some (attr, numbers)
  /-- There is one slot for each attribute that occurs in a row, in the order of their
  first rows. -/
  attributes_eq : table.slots.map Prod.fst = (table.rows.map AccessRow.attr).eraseDups
  /-- A slot lists the numbers of rows of its attribute, in order. -/
  numbers_ordered : ∀ attr numbers, (attr, numbers) ∈ table.slots → numbers.Pairwise (· < ·)
  rows_match : ∀ attr numbers, (attr, numbers) ∈ table.slots → ∀ number ∈ numbers,
    ∃ row, table.rows[number]? = some row ∧ row.attr = attr
  /-- Every row is listed in one slot. -/
  numbers_perm : (table.slots.flatMap Prod.snd).Perm (List.range table.rows.length)

/-- The slots of some rows list all numbers of rows, each once. -/
private theorem numbers_indexOf_perm (rows : List AccessRow) :
    ((AccessTable.indexOf rows).flatMap Prod.snd).Perm (List.range rows.length) := by
  rw [AccessTable.indexOf, List.flatMap_map]
  have distinct : ((rows.map AccessRow.attr).eraseDups.flatMap fun attr =>
      rows.findIdxs fun row => row.attr == attr).Nodup := by
    apply List.nodup_flatMap.mpr
    refine ⟨fun attr _ => List.nodup_findIdxs, ?_⟩
    apply (nodup_eraseDups _).imp
    intro first second different number firstListed secondListed
    obtain ⟨_, isFirst⟩ := List.mem_findIdxs_iff_exists_getElem_pos.mp firstListed
    obtain ⟨_, isSecond⟩ := List.mem_findIdxs_iff_exists_getElem_pos.mp secondListed
    exact different ((beq_iff_eq.mp isFirst).symm.trans (beq_iff_eq.mp isSecond))
  rw [List.perm_ext_iff_of_nodup distinct List.nodup_range]
  intro number
  rw [List.mem_flatMap, List.mem_range]
  constructor
  · rintro ⟨attr, _, listed⟩
    obtain ⟨numberLt, _⟩ := List.mem_findIdxs_iff_exists_getElem_pos.mp listed
    exact numberLt
  · intro numberLt
    refine ⟨rows[number].attr, ?_, ?_⟩
    · exact List.mem_eraseDups.mpr (List.mem_map_of_mem (List.getElem_mem numberLt))
    · exact List.mem_findIdxs_iff_exists_getElem_pos.mpr ⟨numberLt, beq_self_eq_true _⟩

theorem Indexes.sound {indexed : IndexedTable} {table : AccessTable}
    (indexes : indexed.Indexes table) (coherent : table.Coherent) : indexed.Sound where
  cells_iff := by
    intro stage attr number
    rw [indexes.cells_eq, AccessTable.cell?_eq, idxOf?_eq_some_iff_getElem? coherent.cellsDistinct,
      indexes.rows_eq, List.getElem?_map, Option.map_eq_some_iff]
    constructor
    · rintro ⟨row, found, cellEq⟩
      cases cellEq
      exact ⟨row.mode, found⟩
    · rintro ⟨mode, found⟩
      exact ⟨_, found, rfl⟩
  places_iff := by
    intro attr place
    rw [indexes.places_eq, AccessTable.slot?_eq,
      idxOf?_eq_some_iff_getElem? coherent.nodup_attributes, indexes.slots_eq,
      AccessTable.attributes, List.getElem?_map, Option.map_eq_some_iff]
    constructor
    · rintro ⟨slot, found, rfl⟩
      exact ⟨slot.2, found⟩
    · rintro ⟨numbers, found⟩
      exact ⟨_, found, rfl⟩
  attributes_eq := by
    rw [indexes.slots_eq, indexes.rows_eq]
    exact coherent.attributes_eq
  numbers_ordered := by
    intro attr numbers member
    rw [indexes.slots_eq, coherent.slotsIndex] at member
    obtain ⟨name, _, slotEq⟩ := List.mem_map.mp member
    cases slotEq
    exact List.pairwise_findIdxs
  rows_match := by
    intro attr numbers member number listed
    rw [indexes.slots_eq, coherent.slotsIndex] at member
    obtain ⟨name, _, slotEq⟩ := List.mem_map.mp member
    cases slotEq
    obtain ⟨numberLt, attrEq⟩ := List.mem_findIdxs_iff_exists_getElem_pos.mp listed
    rw [indexes.rows_eq]
    exact ⟨_, List.getElem?_eq_getElem numberLt, beq_iff_eq.mp attrEq⟩
  numbers_perm := by
    rw [indexes.slots_eq, indexes.rows_eq, coherent.slotsIndex]
    exact numbers_indexOf_perm table.rows

variable {indexed next : IndexedTable} {table : AccessTable} {stage : StageId} {access : Access}

/-- Unless a merge reports a change there is none, down to the indexes. -/
theorem eq_of_merge?_unchanged {answer : Except Fault Bool}
    (merged : indexed.merge? stage access = some (next, answer)) (unchanged : answer ≠ .ok true) :
    next = indexed := by
  rw [merge?] at merged
  split at merged
  · cases merged
    rfl
  · split at merged
    · obtain ⟨outcome, widened, answered⟩ := Option.map_eq_some_iff.mp merged
      obtain ⟨row, _, rfl⟩ := Option.map_eq_some_iff.mp widened
      by_cases absorbed : row.mode ∪ access.mode = row.mode
      · simp only [if_pos absorbed] at answered
        cases answered
        rfl
      · simp only [if_neg absorbed] at answered
        cases answered
        exact absurd rfl unchanged
    · obtain ⟨entered, _, outcome⟩ := Option.map_eq_some_iff.mp merged
      cases outcome
      exact absurd rfl unchanged

/-- A merge that reports a change has added a flag. -/
theorem Indexes.ne_of_merge_changed
    (nextIndexes : next.Indexes (table.perform (.merge stage access)))
    (indexes : indexed.Indexes table) (coherent : table.Coherent)
    (changed : (table.merge stage access).map Prod.snd = .ok true) : next ≠ indexed := by
  rintro rfl
  have rowsEq := nextIndexes.rows_eq.symm.trans indexes.rows_eq
  cases merged : table.merge stage access with
  | error fault =>
      rw [merged] at changed
      cases changed
  | ok outcome =>
      obtain ⟨widened, answer⟩ := outcome
      rw [merged] at changed
      cases changed
      rw [AccessTable.perform, merged] at rowsEq
      have lacking := (coherent.changed_iff merged).mp rfl
      have added := coherent.modeAt_merge merged access.attr stage
      rw [if_pos ⟨rfl, rfl⟩, AccessTable.modeAt_eq_modeIn, rowsEq, ← AccessTable.modeAt_eq_modeIn]
        at added
      exact lacking (Mode.union_eq_left_iff.mp added.symm)

/-- Whatever has been merged into a new table and cleared from it, refused accesses included,
no index led nowhere on the way.  Indexes, slots and rows fit together, and the rows list the
cells of the accesses since the last clearing that were not refused, each once and in the
order of their first accesses, with the union of all modes merged, which is not empty.  A
further merge reports a change exactly if its cell is new or lacks a flag, reports none exactly
if it is not refused and leaves everything as it was, and is refused exactly if the access has
no mode, which changes nothing either. -/
theorem run_lists_first_seen (calls : List AccessTable.Call) :
    let table := AccessTable.run calls
    let accesses := AccessTable.Call.accepted calls
    ∃ indexed, run? calls = some indexed ∧ indexed.Indexes table ∧ indexed.Sound
      ∧ indexed.rows = AccessTable.firstSeen accesses
      ∧ (∀ row ∈ indexed.rows, row.mode ≠ ∅)
      ∧ ∀ stage access, ∃ next,
        let answer := (table.merge stage access).map Prod.snd
        indexed.merge? stage access = some (next, answer)
          ∧ (answer = .ok true ↔ access.mode ≠ ∅
            ∧ (AccessTable.cellOf (stage, access) ∉ accesses.map AccessTable.cellOf
              ∨ ¬ (AccessTable.mergedMode accesses access.attr stage).includes access.mode = true))
          ∧ (answer = .ok false ↔ access.mode ≠ ∅ ∧ next = indexed)
          ∧ ((∃ fault, answer = .error fault) ↔ access.mode = ∅)
          ∧ ∀ fault, answer = .error fault →
            fault = .emptyAccess access.attr stage ∧ fault.category = .invalidUsage
              ∧ next = indexed := by
  intro table accesses
  have records : table.Records accesses := .run calls
  obtain ⟨indexed, ran, indexes⟩ := Indexes.run calls
  refine ⟨indexed, ran, indexes, indexes.sound records.coherent, ?_, ?_, ?_⟩
  · rw [indexes.rows_eq]
    exact records.rows_eq
  · rw [indexes.rows_eq]
    exact records.coherent.modesPresent
  intro stage access
  obtain ⟨next, merged, nextIndexes⟩ := indexes.merge stage access
  refine ⟨next, merged, ?_⟩
  have changed := nextIndexes.ne_of_merge_changed indexes records.coherent
  have unchanged := eq_of_merge?_unchanged merged
  rw [records.coherent.answer_merge, records.modeAt_eq] at changed unchanged ⊢
  by_cases absent : access.mode = ∅
  · rw [if_pos absent] at unchanged ⊢
    have same : next = indexed := unchanged (by simp)
    refine ⟨by simp [absent], by simp [absent], by simp [absent], ?_⟩
    rintro fault refused
    cases refused
    exact ⟨rfl, rfl, same⟩
  · rw [if_neg absent] at changed unchanged ⊢
    cases included : (AccessTable.mergedMode accesses access.attr stage).includes access.mode with
    | true =>
        have same : next = indexed := unchanged (by simp [included])
        have seen := records.seen_of_includes absent included
        exact ⟨by simp [seen], by simp [absent, same], by simp [absent], by simp⟩
    | false =>
        have different : next ≠ indexed := changed (by simp [included])
        exact ⟨by simp [absent], by simp [different], by simp [absent], by simp⟩

/-- What is cleared or refused leaves no row, and a row that is widened keeps its place. -/
example :
    let calls : List AccessTable.Call :=
      [.merge ⟨7⟩ (.write .age), .clear, .merge ⟨1⟩ (.read .size), .merge ⟨0⟩ ⟨.alpha, ∅⟩,
        .merge ⟨0⟩ (.read .age), .merge ⟨1⟩ (.read .age), .merge ⟨1⟩ (.write .size)]
    AccessTable.run calls =
      { rows :=
          [⟨⟨1⟩, .size, .readWriteCurrent⟩, ⟨⟨0⟩, .age, .readCurrent⟩, ⟨⟨1⟩, .age, .readCurrent⟩]
        slots := [(.size, [0]), (.age, [1, 2])] } := by
  decide

end IndexedTable

end AttributeFlow
