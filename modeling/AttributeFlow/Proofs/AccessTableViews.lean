import AttributeFlow.Proofs.AccessTableMerge
import Mathlib.Data.List.Perm.Subperm

/-!
# Unions and comparisons of tables

The union of the modes of an attribute is taken over the row numbers of its slot,
and two tables are compared row by row of the first one.  On coherent tables both
come to statements about cells: the union has the flags that the attribute has in
some stage, and tables hold the same facts exactly if all their cells agree.
-/

namespace AttributeFlow.AccessTable.Coherent

variable {table other : AccessTable}

/-- The slot of an attribute has the numbers of its rows. -/
theorem rowsOf_eq (coherent : table.Coherent) (attr : Attribute) :
    table.rowsOf attr = table.rows.findIdxs fun row => row.attr == attr := by
  rw [rowsOf, slot?, ← List.find?_eq_bind_findIdx?_getElem?, coherent.slotsIndex, indexOf,
    List.find?_map]
  cases found : (table.rows.map AccessRow.attr).eraseDups.find?
      ((fun slot : Attribute × List Nat => slot.1 == attr) ∘ fun name =>
        (name, table.rows.findIdxs fun row => row.attr == name)) with
  | some name =>
      obtain rfl : name = attr := by simpa using List.find?_some found
      rfl
  | none =>
      symm
      apply List.findIdxs_eq_nil_iff.mpr
      intro row member
      have rowAttrMem := List.mem_eraseDups.mpr (List.mem_map_of_mem (f := AccessRow.attr) member)
      simpa using List.find?_eq_none.mp found row.attr rowAttrMem

theorem has_unionMode_iff (coherent : table.Coherent) {attr : Attribute} {flag : Nat} :
    (table.unionMode attr).Has flag ↔ ∃ stage, (table.modeAt attr stage).Has flag := by
  rw [unionMode, ← List.foldl_map, Mode.has_foldl_union_iff, coherent.rowsOf_eq]
  simp only [Mode.not_has_empty, false_or, List.mem_map, exists_exists_and_eq_and,
    List.mem_findIdxs_iff_exists_getElem_pos, beq_iff_eq]
  constructor
  · rintro ⟨number, ⟨numberLt, rfl⟩, present⟩
    have modeEq := (coherent.mem_rows_iff.mp (List.getElem_mem numberLt)).1
    rw [rowMode, List.getElem?_eq_getElem numberLt, Option.elim_some, ← modeEq] at present
    exact ⟨table.rows[number].stage, present⟩
  · rintro ⟨stage, present⟩
    have member : (⟨stage, attr, table.modeAt attr stage⟩ : AccessRow) ∈ table.rows :=
      coherent.mem_rows_iff.mpr ⟨rfl, Mode.ne_empty_of_has present⟩
    obtain ⟨number, numberLt, rowEq⟩ := List.getElem_of_mem member
    refine ⟨number, ⟨numberLt, by rw [rowEq]⟩, ?_⟩
    rw [rowMode, List.getElem?_eq_getElem numberLt, rowEq]
    exact present

/-- The attributes with a mode are those of the table. -/
theorem unionMode_ne_empty_iff (coherent : table.Coherent) {attr : Attribute} :
    table.unionMode attr ≠ ∅ ↔ attr ∈ table.attributes := by
  rw [← contains_iff_mem, coherent.contains_iff, Mode.ne_empty_iff]
  simp only [coherent.has_unionMode_iff, Mode.ne_empty_iff]
  exact exists_comm

theorem nodup_rows (coherent : table.Coherent) : table.rows.Nodup :=
  coherent.cellsDistinct.of_map

/-- Going through some keys and their rows finds every row once if the keys of all rows
are among them. -/
theorem flatMap_rows_perm {Key : Type} [BEq Key] [LawfulBEq Key] (coherent : table.Coherent)
    (key : AccessRow → Key) {keys : List Key} (distinct : keys.Nodup)
    (listed : ∀ row ∈ table.rows, key row ∈ keys) :
    (keys.flatMap fun name => table.rows.filter fun row => key row == name).Perm table.rows := by
  rw [List.perm_ext_iff_of_nodup _ coherent.nodup_rows]
  · intro row
    simp only [List.mem_flatMap, List.mem_filter, beq_iff_eq]
    constructor
    · rintro ⟨_, _, member, _⟩
      exact member
    · intro member
      exact ⟨key row, listed row member, member, rfl⟩
  · rw [List.nodup_flatMap]
    refine ⟨fun name _ => coherent.nodup_rows.filter _, ?_⟩
    refine distinct.imp ?_
    intro name other different row member otherMember
    have ofName : key row = name := by simpa using (List.mem_filter.mp member).2
    have ofOther : key row = other := by simpa using (List.mem_filter.mp otherMember).2
    exact different (ofName.symm.trans ofOther)

/-- Tables have the same rows, up to order, if all their cells agree. -/
theorem rows_perm_iff (coherent : table.Coherent) (otherCoherent : other.Coherent) :
    table.rows.Perm other.rows ↔
      ∀ attr stage, table.modeAt attr stage = other.modeAt attr stage := by
  rw [List.perm_ext_iff_of_nodup coherent.nodup_rows otherCoherent.nodup_rows]
  constructor
  · intro sameRows attr stage
    -- A cell without a row is empty, so flags are compared in both directions.
    have included {first second : AccessTable} (firstCoherent : first.Coherent)
        (secondCoherent : second.Coherent) (within : ∀ row ∈ first.rows, row ∈ second.rows)
        (flag : Nat) (present : (first.modeAt attr stage).Has flag) :
        (second.modeAt attr stage).Has flag := by
      have member : (⟨stage, attr, first.modeAt attr stage⟩ : AccessRow) ∈ first.rows :=
        firstCoherent.mem_rows_iff.mpr ⟨rfl, Mode.ne_empty_of_has present⟩
      have modeEq := (secondCoherent.mem_rows_iff.mp (within _ member)).1
      rw [modeEq]
      exact present
    apply Mode.ext_has
    intro flag
    constructor
    · exact included coherent otherCoherent (fun row => (sameRows row).mp) flag
    · exact included otherCoherent coherent (fun row => (sameRows row).mpr) flag
  · intro sameCells row
    rw [coherent.mem_rows_iff, otherCoherent.mem_rows_iff, sameCells]

/-- Tables hold the same facts exactly if all their cells agree. -/
theorem sameFacts_iff (coherent : table.Coherent) (otherCoherent : other.Coherent) :
    table.sameFacts other = true ↔
      ∀ attr stage, table.modeAt attr stage = other.modeAt attr stage := by
  rw [← coherent.rows_perm_iff otherCoherent]
  simp only [sameFacts, size, Bool.and_eq_true, beq_iff_eq, List.all_eq_true]
  constructor
  · rintro ⟨sameSize, rowsKept⟩
    have within : table.rows ⊆ other.rows := fun row member =>
      otherCoherent.mem_rows_iff.mpr ⟨rowsKept row member, coherent.modesPresent row member⟩
    -- The first table has as many rows as the second one, so none of the second is left over.
    exact (List.subperm_of_subset coherent.nodup_rows within).perm_of_length_le
      (Nat.le_of_eq sameSize.symm)
  · intro perm
    refine ⟨perm.length_eq, ?_⟩
    intro row member
    exact (otherCoherent.mem_rows_iff.mp (perm.mem_iff.mp member)).1

end AttributeFlow.AccessTable.Coherent
