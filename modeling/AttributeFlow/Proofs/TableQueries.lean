import AttributeFlow.Dataset
import AttributeFlow.Proofs.IndexedTables

/-!
# Views of a table

A table may be asked for the mode of one cell, for the modes of an attribute or of a stage,
for the union over all stages, and for its attributes.  Each question is answered along
another path: through the index of cells, through the slots and their numbers, or by going
through the rows.  After any calls all of them report the same cells, and what a dataset says
about an attribute at large it says of some stage.
-/

namespace AttributeFlow

namespace IndexedTable

def ofStage (table : IndexedTable) (stage : StageId) : List Access :=
  (table.rows.filter fun row => row.stage == stage).map fun row => ⟨row.attr, row.mode⟩

/-- The mode of a cell, whose row must exist if the index leads to it. -/
def modeAt? (table : IndexedTable) (attr : Attribute) (stage : StageId) : Option Mode :=
  match table.cells (stage, attr) with
  | some number => (table.rows[number]?).map AccessRow.mode
  | none => some ∅

/-- The union of the modes of some rows, which must exist, and a mode. -/
def unionOf? (table : IndexedTable) (start : Mode) (numbers : List Nat) : Option Mode :=
  numbers.foldlM (fun union number => (table.rows[number]?).map fun row => union ∪ row.mode) start

/-- The union of the modes of an attribute, whose slot must exist if the index leads to it. -/
def unionMode? (table : IndexedTable) (attr : Attribute) : Option Mode :=
  match table.places attr with
  | some place => (table.slots[place]?).bind fun slot => table.unionOf? ∅ slot.2
  | none => some ∅

def contains (table : IndexedTable) (attr : Attribute) : Bool :=
  (table.places attr).isSome

/-- The stages and modes of some rows, which must exist. -/
def modesOf? (table : IndexedTable) (numbers : List Nat) : Option (List (StageId × Mode)) :=
  numbers.mapM fun number => (table.rows[number]?).map fun row => (row.stage, row.mode)

def byAttribute? (table : IndexedTable) : Option (List (Attribute × List (StageId × Mode))) :=
  table.slots.mapM fun slot => (table.modesOf? slot.2).map fun modes => (slot.1, modes)

def unions? (table : IndexedTable) : Option (List Access) :=
  table.slots.mapM fun slot => (table.unionMode? slot.1).map fun mode => ⟨slot.1, mode⟩

/-- Every view is found through the indexes, and is the one that a search gives. -/
structure Serves (indexed : IndexedTable) (table : AccessTable) : Prop where
  ofStage_eq : ∀ stage, indexed.ofStage stage = table.ofStage stage
  modeAt_eq : ∀ attr stage, indexed.modeAt? attr stage = some (table.modeAt attr stage)
  unionMode_eq : ∀ attr, indexed.unionMode? attr = some (table.unionMode attr)
  contains_eq : ∀ attr, indexed.contains attr = table.contains attr
  byAttribute_eq : indexed.byAttribute? = some table.byAttribute
  unions_eq : indexed.unions? = some table.unions

variable {indexed : IndexedTable} {table : AccessTable}

theorem Indexes.unionOf?_eq (indexes : indexed.Indexes table) {numbers : List Nat}
    (exist : ∀ number ∈ numbers, ∃ row, table.rows[number]? = some row) (start : Mode) :
    indexed.unionOf? start numbers =
      some (numbers.foldl (fun union number => union ∪ table.rowMode number) start) := by
  induction numbers generalizing start with
  | nil => rfl
  | cons number numbers ih =>
      obtain ⟨row, found⟩ := exist number List.mem_cons_self
      have restExist := fun other member => exist other (List.mem_cons_of_mem number member)
      have modeEq : table.rowMode number = row.mode := by
        rw [AccessTable.rowMode, found, Option.elim_some]
      rw [unionOf?, List.foldlM_cons, indexes.rows_eq, found, List.foldl_cons, modeEq,
        ← ih restExist, unionOf?, indexes.rows_eq]
      rfl

namespace Indexes

/-- The numbers in a slot are numbers of rows. -/
theorem exists_row (indexes : indexed.Indexes table) (coherent : table.Coherent)
    {slot : Attribute × List Nat} (member : slot ∈ table.slots) {number : Nat}
    (listed : number ∈ slot.2) : ∃ row, table.rows[number]? = some row := by
  have sound := indexes.sound coherent
  rw [← indexes.slots_eq] at member
  obtain ⟨row, found, _⟩ := sound.rows_match slot.1 slot.2 member number listed
  exact ⟨row, indexes.rows_eq ▸ found⟩

theorem ofStage_eq (indexes : indexed.Indexes table) (stage : StageId) :
    indexed.ofStage stage = table.ofStage stage := by
  rw [ofStage, indexes.rows_eq, AccessTable.ofStage]

theorem modeAt?_eq (indexes : indexed.Indexes table) (attr : Attribute) (stage : StageId) :
    indexed.modeAt? attr stage = some (table.modeAt attr stage) := by
  rw [modeAt?, AccessTable.modeAt, indexes.cells_eq]
  cases found : table.cell? attr stage with
  | none => rfl
  | some number =>
      obtain ⟨numberLt, _⟩ := List.findIdx?_eq_some_iff_getElem.mp found
      dsimp only
      rw [Option.elim_some, AccessTable.rowMode, indexes.rows_eq, List.getElem?_eq_getElem numberLt]
      rfl

theorem unionMode?_eq (indexes : indexed.Indexes table) (coherent : table.Coherent)
    (attr : Attribute) : indexed.unionMode? attr = some (table.unionMode attr) := by
  rw [unionMode?, AccessTable.unionMode, AccessTable.rowsOf, indexes.places_eq]
  cases found : table.slot? attr with
  | none => rfl
  | some place =>
      obtain ⟨placeLt, _⟩ := List.findIdx?_eq_some_iff_getElem.mp found
      dsimp only
      rw [Option.bind_some, indexes.slots_eq, List.getElem?_eq_getElem placeLt]
      apply indexes.unionOf?_eq
      intro number listed
      exact indexes.exists_row coherent (List.getElem_mem placeLt) listed

theorem contains_eq (indexes : indexed.Indexes table) (attr : Attribute) :
    indexed.contains attr = table.contains attr := by
  rw [contains, indexes.places_eq, AccessTable.contains]

theorem byAttribute?_eq (indexes : indexed.Indexes table) (coherent : table.Coherent) :
    indexed.byAttribute? = some table.byAttribute := by
  rw [byAttribute?, indexes.slots_eq, AccessTable.byAttribute]
  apply mapM_eq_some_map
  intro slot member
  rw [modesOf?, indexes.rows_eq, mapM_eq_some_filterMap]
  · rfl
  · intro number listed
    obtain ⟨row, found⟩ := indexes.exists_row coherent member listed
    exact ⟨_, congrArg (Option.map _) found⟩

theorem unions?_eq (indexes : indexed.Indexes table) (coherent : table.Coherent) :
    indexed.unions? = some table.unions := by
  rw [unions?, indexes.slots_eq, AccessTable.unions, AccessTable.attributes, List.map_map]
  apply mapM_eq_some_map
  intro slot _
  rw [indexes.unionMode?_eq coherent]
  rfl

theorem serves (indexes : indexed.Indexes table) (coherent : table.Coherent) :
    indexed.Serves table where
  ofStage_eq := indexes.ofStage_eq
  modeAt_eq := indexes.modeAt?_eq
  unionMode_eq := indexes.unionMode?_eq coherent
  contains_eq := indexes.contains_eq
  byAttribute_eq := indexes.byAttribute?_eq coherent
  unions_eq := indexes.unions?_eq coherent

end Indexes

end IndexedTable

namespace AccessTable

/-- All views of a table report the same cells. -/
structure ViewsAgree (table : AccessTable) : Prop where
  modeAt_of_row : ∀ row ∈ table.rows, table.modeAt row.attr row.stage = row.mode
  modeAt_of_no_row : ∀ attr stage, (∀ mode, ⟨stage, attr, mode⟩ ∉ table.rows) →
    table.modeAt attr stage = ∅
  byAttribute_perm : (table.byAttribute.flatMap fun (attr, modes) =>
    modes.map fun (stage, mode) => AccessRow.mk stage attr mode).Perm table.rows
  mem_byAttribute_iff : ∀ attr stage mode,
    (∃ modes, (attr, modes) ∈ table.byAttribute ∧ (stage, mode) ∈ modes) ↔
      table.modeAt attr stage = mode ∧ mode ≠ ∅
  /-- Under an attribute, stages have the order of their rows. -/
  modes_of_byAttribute : ∀ attr modes, (attr, modes) ∈ table.byAttribute →
    modes = (table.rows.filter fun row => row.attr == attr).map fun row => (row.stage, row.mode)
  /-- Attributes have the order of their first rows. -/
  attributes_of_byAttribute :
    table.byAttribute.map Prod.fst = (table.rows.map AccessRow.attr).eraseDups
  mem_ofStage_iff : ∀ stage attr mode,
    ⟨attr, mode⟩ ∈ table.ofStage stage ↔ table.modeAt attr stage = mode ∧ mode ≠ ∅
  nodup_ofStage : ∀ stage, ((table.ofStage stage).map Access.attr).Nodup
  unionMode_isUnionOf : ∀ attr,
    (table.unionMode attr).IsUnionOf fun mode => ∃ stage, table.modeAt attr stage = mode
  contains_iff_unionMode : ∀ attr, table.contains attr = true ↔ table.unionMode attr ≠ ∅
  contains_iff_modeAt : ∀ attr, table.contains attr = true ↔ ∃ stage, table.modeAt attr stage ≠ ∅
  unions_eq : table.unions = ((table.rows.map AccessRow.attr).eraseDups).map fun attr =>
    ⟨attr, table.unionMode attr⟩
  mem_unions_iff : ∀ attr mode,
    ⟨attr, mode⟩ ∈ table.unions ↔ table.contains attr = true ∧ table.unionMode attr = mode

namespace Coherent

variable {table : AccessTable}

theorem byAttribute_perm (coherent : table.Coherent) :
    (table.byAttribute.flatMap fun (attr, modes) =>
      modes.map fun (stage, mode) => AccessRow.mk stage attr mode).Perm table.rows := by
  have rowsEq (attr : Attribute) :
      (table.modesOf attr).map (fun (stage, mode) => AccessRow.mk stage attr mode) =
        table.rows.filter fun row => row.attr == attr := by
    rw [modesOf, List.map_map]
    apply (List.map_congr_left _).trans (List.map_id _)
    intro row member
    have attrEq : row.attr = attr := by simpa using (List.mem_filter.mp member).2
    rw [← attrEq]
    rfl
  rw [coherent.byAttribute_eq, List.flatMap_map]
  simp only [rowsEq]
  apply coherent.flatMap_rows_perm AccessRow.attr coherent.nodup_attributes
  intro row member
  rw [coherent.attributes_eq]
  exact List.mem_eraseDups.mpr (List.mem_map_of_mem member)

theorem mem_byAttribute_iff (coherent : table.Coherent) {attr : Attribute}
    {modes : List (StageId × Mode)} :
    (attr, modes) ∈ table.byAttribute ↔
      table.contains attr = true ∧ modes = table.modesOf attr := by
  rw [coherent.byAttribute_eq, List.mem_map, contains_iff_mem]
  constructor
  · rintro ⟨name, member, slotEq⟩
    cases slotEq
    exact ⟨member, rfl⟩
  · rintro ⟨member, rfl⟩
    exact ⟨attr, member, rfl⟩

theorem mem_ofStage_iff (coherent : table.Coherent) {stage : StageId} {attr : Attribute}
    {mode : Mode} :
    ⟨attr, mode⟩ ∈ table.ofStage stage ↔ table.modeAt attr stage = mode ∧ mode ≠ ∅ := by
  rw [ofStage, List.mem_map]
  constructor
  · rintro ⟨row, listed, same⟩
    rw [List.mem_filter, beq_iff_eq] at listed
    obtain ⟨member, rfl⟩ := listed
    cases same
    exact coherent.mem_rows_iff.mp member
  · intro cell
    have member : (⟨stage, attr, mode⟩ : AccessRow) ∈ table.rows := coherent.mem_rows_iff.mpr cell
    exact ⟨_, List.mem_filter.mpr ⟨member, beq_self_eq_true _⟩, rfl⟩

theorem nodup_ofStage (coherent : table.Coherent) (stage : StageId) :
    ((table.ofStage stage).map Access.attr).Nodup := by
  -- Rows of one stage have different attributes since they have different cells.
  have cellsEq : (table.rows.filter fun row => row.stage == stage).map AccessRow.cell =
      ((table.ofStage stage).map Access.attr).map (Prod.mk stage) := by
    rw [ofStage, List.map_map, List.map_map]
    apply List.map_congr_left
    intro row member
    have stageEq : row.stage = stage := by simpa using (List.mem_filter.mp member).2
    rw [AccessRow.cell, stageEq]
    rfl
  have distinct := coherent.cellsDistinct.sublist
    ((List.filter_sublist (p := fun row => row.stage == stage)).map AccessRow.cell)
  rw [cellsEq] at distinct
  exact distinct.of_map

theorem viewsAgree (coherent : table.Coherent) : table.ViewsAgree where
  modeAt_of_row := fun row member => (coherent.mem_rows_iff.mp member).1
  modeAt_of_no_row := by
    intro attr stage noRow
    by_contra present
    exact noRow _ (coherent.mem_rows_iff.mpr ⟨rfl, present⟩)
  byAttribute_perm := coherent.byAttribute_perm
  mem_byAttribute_iff := by
    intro attr stage mode
    rw [← coherent.mem_modesOf_iff]
    constructor
    · rintro ⟨modes, member, listed⟩
      rw [(coherent.mem_byAttribute_iff.mp member).2] at listed
      exact listed
    · intro listed
      obtain ⟨modeEq, present⟩ := coherent.mem_modesOf_iff.mp listed
      have contained := coherent.contains_iff.mpr ⟨stage, modeEq.trans_ne present⟩
      exact ⟨_, coherent.mem_byAttribute_iff.mpr ⟨contained, rfl⟩, listed⟩
  modes_of_byAttribute := fun attr modes member => (coherent.mem_byAttribute_iff.mp member).2
  attributes_of_byAttribute := by
    rw [coherent.byAttribute_eq, List.map_map, ← coherent.attributes_eq]
    exact List.map_id _
  mem_ofStage_iff := fun _ _ _ => coherent.mem_ofStage_iff
  nodup_ofStage := coherent.nodup_ofStage
  unionMode_isUnionOf := by
    intro attr flag
    rw [coherent.has_unionMode_iff]
    constructor
    · rintro ⟨stage, present⟩
      exact ⟨_, ⟨stage, rfl⟩, present⟩
    · rintro ⟨_, ⟨stage, rfl⟩, present⟩
      exact ⟨stage, present⟩
  contains_iff_unionMode := fun _ => contains_iff_mem.trans coherent.unionMode_ne_empty_iff.symm
  contains_iff_modeAt := fun _ => coherent.contains_iff
  unions_eq := by
    rw [unions, coherent.attributes_eq]
  mem_unions_iff := by
    intro attr mode
    rw [unions, List.mem_map, contains_iff_mem]
    constructor
    · rintro ⟨name, member, accessEq⟩
      cases accessEq
      exact ⟨member, rfl⟩
    · rintro ⟨member, rfl⟩
      exact ⟨attr, member, rfl⟩

end Coherent

end AccessTable

namespace Dataset

variable {dataset : Dataset}

theorem uses_iff (coherent : dataset.table.Coherent) (attr : Attribute) :
    dataset.uses attr = true ↔ ∃ stage, dataset.usesAt attr stage = true := by
  have used : dataset.uses attr = true ↔ dataset.table.unionMode attr ≠ ∅ := by
    simp [uses, Mode.isEmpty, unionMode]
  have usedAt (stage : StageId) :
      dataset.usesAt attr stage = true ↔ dataset.table.modeAt attr stage ≠ ∅ := by
    simp [usesAt, Mode.isEmpty, modeAt]
  simp only [used, usedAt]
  exact (coherent.unionMode_ne_empty_iff.trans AccessTable.contains_iff_mem.symm).trans
    coherent.contains_iff

theorem reads_iff (coherent : dataset.table.Coherent) (attr : Attribute) :
    dataset.reads attr = true ↔ ∃ stage, dataset.readsAt attr stage = true := by
  simp only [reads, readsAt, Mode.reads_iff]
  exact coherent.has_unionMode_iff

theorem writes_iff (coherent : dataset.table.Coherent) (attr : Attribute) :
    dataset.writes attr = true ↔ ∃ stage, dataset.writesAt attr stage = true := by
  simp only [writes, writesAt, Mode.writes_iff]
  exact coherent.has_unionMode_iff

end Dataset

/-- After any merging and clearing, the mode of a cell is that of its row, and empty without
one.  The views by attribute and by stage list exactly the cells that are not empty, each
once; under an attribute stages have the order of their rows, and attributes have the order
of their first rows.  The union of an attribute has the flags that it has in some stage, and
the attributes with a union that is not empty are those that the table contains.  Following
the indexes gives the same views and never leads nowhere.  A dataset with such a table hence
uses, reads or writes an attribute exactly if some stage does. -/
theorem AccessTable.views_agree (calls : List AccessTable.Call) :
    let table := AccessTable.run calls
    table.ViewsAgree
      ∧ (∃ indexed, IndexedTable.run? calls = some indexed ∧ indexed.Serves table)
      ∧ ∀ dataset : Dataset, dataset.table = table → ∀ attr,
        (dataset.uses attr = true ↔ ∃ stage, dataset.usesAt attr stage = true)
          ∧ (dataset.reads attr = true ↔ ∃ stage, dataset.readsAt attr stage = true)
          ∧ (dataset.writes attr = true ↔ ∃ stage, dataset.writesAt attr stage = true) := by
  intro table
  have coherent : table.Coherent := (AccessTable.Records.run calls).coherent
  refine ⟨coherent.viewsAgree, ?_, ?_⟩
  · obtain ⟨indexed, ran, indexes⟩ := IndexedTable.Indexes.run calls
    exact ⟨indexed, ran, indexes.serves coherent⟩
  · intro dataset tableEq attr
    rw [← tableEq] at coherent
    exact ⟨Dataset.uses_iff coherent attr, Dataset.reads_iff coherent attr,
      Dataset.writes_iff coherent attr⟩

/-- One stage reads the age and another one writes it. -/
example :
    let table := AccessTable.run
      [.merge ⟨1⟩ (.read .age), .merge ⟨0⟩ (.readSource .size), .merge ⟨0⟩ (.write .age)]
    table.byAttribute =
        [(.age, [(⟨1⟩, .readCurrent), (⟨0⟩, .writeCurrent)]), (.size, [(⟨0⟩, .readSource)])]
      ∧ table.ofStage ⟨0⟩ = [.readSource .size, .write .age]
      ∧ table.unions = [.readWrite .age, .readSource .size] := by
  decide

end AttributeFlow
