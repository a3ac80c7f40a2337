import AttributeFlow.Proofs.TableQueries

/-!
# Comparing tables

Tables are compared from one side: they must have equally many rows, and each row of the first
must have the mode that the second has in its cell.  Rows belong to distinct cells and are
never without a flag, so the rows of the first are then rows of the second, and as there are
equally many of them none of the second is left over.

Hence two tables are equal exactly if all their cells agree.  What a cell holds depends only on
which accesses were merged, and neither on their order nor on how often each was merged.
-/

namespace AttributeFlow

namespace IndexedTable

/-- Whether two tables hold the same facts, by going through the rows of the first and
following the indexes of the second.  The first row that differs ends the comparison. -/
def sameFacts? (first second : IndexedTable) : Option Bool :=
  if first.rows.length = second.rows.length then
    first.rows.allM fun row => (second.modeAt? row.attr row.stage).map (· == row.mode)
  else some false

/-- Comparing by indexes does not stop and does what comparing by searching does. -/
theorem Indexes.sameFacts?_eq {indexed otherIndexed : IndexedTable} {table other : AccessTable}
    (indexes : indexed.Indexes table) (otherIndexes : otherIndexed.Indexes other) :
    indexed.sameFacts? otherIndexed = some (table.sameFacts other) := by
  have rowsCompared : (table.rows.allM fun row =>
      (otherIndexed.modeAt? row.attr row.stage).map (· == row.mode)) =
        some (table.rows.all fun row => other.modeAt row.attr row.stage == row.mode) := by
    apply allM_eq_some_all
    intro row _
    rw [otherIndexes.modeAt?_eq, Option.map_some]
  rw [sameFacts?, indexes.rows_eq, otherIndexes.rows_eq, rowsCompared, AccessTable.sameFacts,
    AccessTable.size, AccessTable.size]
  by_cases sameSize : table.rows.length = other.rows.length
  · simp [sameSize]
  · simp [sameSize]

end IndexedTable

namespace AccessTable

/-- The same accesses were merged since the last clearing, refused ones apart, in whatever
order and however often. -/
def Call.SameAccesses (calls others : List Call) : Prop :=
  ∀ access, access ∈ accepted calls ↔ access ∈ accepted others

/-- The merged mode of a cell has the flags with which the stage touched the attribute. -/
theorem isUnionOf_mergedMode (accesses : List (StageId × Access)) (attr : Attribute)
    (stage : StageId) :
    (mergedMode accesses attr stage).IsUnionOf fun mode => (stage, ⟨attr, mode⟩) ∈ accesses := by
  intro flag
  rw [mergedMode, Mode.has_foldl_union_iff]
  simp only [Mode.not_has_empty, false_or, List.mem_map, List.mem_filter, beq_iff_eq]
  constructor
  · rintro ⟨_, ⟨⟨_, access⟩, ⟨member, cellEq⟩, rfl⟩, present⟩
    cases cellEq
    exact ⟨access.mode, member, present⟩
  · rintro ⟨mode, member, present⟩
    exact ⟨mode, ⟨_, ⟨member, rfl⟩, rfl⟩, present⟩

theorem Call.SameAccesses.mergedMode_eq {calls others : List Call}
    (same : SameAccesses calls others) (attr : Attribute) (stage : StageId) :
    mergedMode (accepted calls) attr stage = mergedMode (accepted others) attr stage := by
  apply Mode.ext_has
  intro flag
  rw [isUnionOf_mergedMode, isUnionOf_mergedMode]
  simp only [same (stage, _)]

theorem sameFacts_run_iff (calls others : List Call) :
    (run calls).sameFacts (run others) = true ↔
      ∀ attr stage, (run calls).modeAt attr stage = (run others).modeAt attr stage :=
  (Records.run calls).coherent.sameFacts_iff (Records.run others).coherent

theorem equivalence_sameFacts :
    Equivalence fun calls others => (run calls).sameFacts (run others) = true where
  refl calls := (sameFacts_run_iff calls calls).mpr fun _ _ => rfl
  symm {calls others} same := by
    rw [sameFacts_run_iff] at same ⊢
    exact fun attr stage => (same attr stage).symm
  trans {calls others further} same otherSame := by
    rw [sameFacts_run_iff] at same otherSame ⊢
    exact fun attr stage => (same attr stage).trans (otherSame attr stage)

/-- Tables are compared by what was merged into them. -/
theorem sameFacts_run_congr {calls others otherCalls otherOthers : List Call}
    (same : Call.SameAccesses calls otherCalls) (otherSame : Call.SameAccesses others otherOthers) :
    (run otherCalls).sameFacts (run otherOthers) = (run calls).sameFacts (run others) := by
  rw [Bool.eq_iff_iff, sameFacts_run_iff, sameFacts_run_iff]
  simp only [(Records.run _).modeAt_eq, same.mergedMode_eq, otherSame.mergedMode_eq]

/-- Whatever has been merged into two tables and cleared from them, they compare as equal
exactly if each attribute has the same mode in each stage in both.  Hence it does not matter
which table is the first one, tables that equal a third one equal each other, and neither the
order of merges nor their repetition makes a difference.  Following the indexes compares in
the same way and never leads nowhere. -/
theorem sameFacts_compares_cells (calls others : List Call) :
    ((run calls).sameFacts (run others) = true ↔
        ∀ attr stage, (run calls).modeAt attr stage = (run others).modeAt attr stage)
      ∧ (run calls).sameFacts (run others) = (run others).sameFacts (run calls)
      ∧ (Equivalence fun calls others : List Call => (run calls).sameFacts (run others) = true)
      ∧ (∀ otherCalls otherOthers,
        Call.SameAccesses calls otherCalls → Call.SameAccesses others otherOthers →
          (run otherCalls).sameFacts (run otherOthers) = (run calls).sameFacts (run others))
      ∧ ∃ indexed otherIndexed,
        IndexedTable.run? calls = some indexed ∧ IndexedTable.run? others = some otherIndexed
          ∧ indexed.sameFacts? otherIndexed = some ((run calls).sameFacts (run others)) := by
  refine ⟨sameFacts_run_iff calls others, ?_, equivalence_sameFacts, ?_, ?_⟩
  · rw [Bool.eq_iff_iff]
    exact ⟨equivalence_sameFacts.symm, equivalence_sameFacts.symm⟩
  · intro otherCalls otherOthers same otherSame
    exact sameFacts_run_congr same otherSame
  · obtain ⟨indexed, ran, indexes⟩ := IndexedTable.Indexes.run calls
    obtain ⟨otherIndexed, otherRan, otherIndexes⟩ := IndexedTable.Indexes.run others
    exact ⟨indexed, otherIndexed, ran, otherRan, indexes.sameFacts?_eq otherIndexes⟩

/-- Two accesses are merged in either order, one of them twice and after a clearing. -/
theorem sameFacts_compares_cells_reordered :
    let calls : List Call := [.merge ⟨0⟩ (.read .age), .merge ⟨1⟩ (.write .size)]
    let reordered : List Call :=
      [.merge ⟨7⟩ (.write .age), .clear, .merge ⟨1⟩ (.write .size), .merge ⟨0⟩ (.read .age),
        .merge ⟨1⟩ (.write .size)]
    Call.SameAccesses calls reordered ∧ Call.SameAccesses calls calls
      ∧ (run reordered).sameFacts (run calls) = (run calls).sameFacts (run calls)
      ∧ (run calls).sameFacts (run calls) = true := by
  intro calls reordered
  have acceptedEq : Call.accepted calls = [(⟨0⟩, .read .age), (⟨1⟩, .write .size)] := by decide
  have reorderedEq : Call.accepted reordered =
      [(⟨1⟩, .write .size), (⟨0⟩, .read .age), (⟨1⟩, .write .size)] := by decide
  have same : Call.SameAccesses calls reordered := by
    intro access
    rw [acceptedEq, reorderedEq]
    simp only [List.mem_cons, List.not_mem_nil, or_false]
    grind
  have compared := sameFacts_compares_cells calls calls
  exact ⟨same, fun _ => Iff.rfl, compared.2.2.2.1 reordered calls same fun _ => Iff.rfl,
    compared.2.2.1.refl calls⟩

/-- Tables of equal size may differ in a cell that only the second one has. -/
example :
    let calls : List Call := [.merge ⟨0⟩ (.read .age), .merge ⟨1⟩ (.write .size)]
    let others : List Call := [.merge ⟨0⟩ (.read .age), .merge ⟨2⟩ (.write .size)]
    (run calls).sameFacts (run others) = false ∧ (run others).sameFacts (run calls) = false := by
  decide

end AccessTable

end AttributeFlow
