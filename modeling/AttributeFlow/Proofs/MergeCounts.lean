import AttributeFlow.Proofs.AnalysisRearrangement
import Mathlib.Algebra.Order.BigOperators.Group.List
import Mathlib.Algebra.Order.Group.Nat
import Mathlib.Data.Finset.Card
import Mathlib.Data.Finset.Range

/-!
# Counting merges

The flags that are set in a table bound the work that it took to fill it.  A merge that changes
the table sets a flag that was not set before, and adds at most one row.  The number of merges
is therefore between the number of rows and the number of flags.  This carries over to lists of
accesses and to passes, in which flags of one cell may arrive in any portions.

All passes of a collection that succeeds change something, apart from the last one, so there is
at most one pass more than there are merges.
-/

namespace AttributeFlow

namespace Mode

/-- The flags that are set. -/
def flags (mode : Mode) : Finset Nat :=
  (Finset.range 8).filter fun flag => mode.bits.getLsbD flag = true

variable {mode other : Mode}

theorem mem_flags {flag : Nat} : flag ∈ mode.flags ↔ mode.Has flag := by
  rw [flags, Finset.mem_filter, Finset.mem_range]
  exact and_iff_right_of_imp BitVec.lt_of_getLsbD

theorem flags_union (mode other : Mode) : (mode ∪ other).flags = mode.flags ∪ other.flags := by
  ext flag
  rw [Finset.mem_union, mem_flags, mem_flags, mem_flags, has_union]

theorem card_flags_le (mode : Mode) : mode.flags.card ≤ 8 :=
  (Finset.card_filter_le _ _).trans_eq (Finset.card_range 8)

theorem card_flags_pos (present : mode ≠ ∅) : 0 < mode.flags.card := by
  obtain ⟨flag, flagSet⟩ := ne_empty_iff.mp present
  exact Finset.card_pos.mpr ⟨flag, mem_flags.mpr flagSet⟩

/-- A union with a mode that is not included has a further flag. -/
theorem card_flags_lt_union (lacking : ¬ mode.includes other = true) :
    mode.flags.card < (mode ∪ other).flags.card := by
  rw [includes_iff] at lacking
  push Not at lacking
  obtain ⟨flag, present, isNew⟩ := lacking
  rw [flags_union]
  refine Finset.card_lt_card (Finset.ssubset_iff_of_subset Finset.subset_union_left |>.mpr ?_)
  exact ⟨flag, Finset.mem_union_right _ (mem_flags.mpr present), mem_flags.not.mpr isNew⟩

theorem flag_lt_three (known : mode.known = mode) {flag : Nat} (present : mode.Has flag) :
    flag < 3 := by
  have bitsOfAll : ∀ bit < 8, Mode.all.bits.getLsbD bit = true → bit < 3 := by decide
  have flagLt : flag < 8 := BitVec.lt_of_getLsbD present
  rw [← known] at present
  have both : (mode.bits &&& Mode.all.bits).getLsbD flag = true := present
  rw [BitVec.getLsbD_and, Bool.and_eq_true] at both
  exact bitsOfAll flag flagLt both.2

theorem card_flags_le_three (onlyKnown : ∀ flag, mode.Has flag → flag < 3) :
    mode.flags.card ≤ 3 := by
  have within : mode.flags ⊆ Finset.range 3 := by
    intro flag member
    exact Finset.mem_range.mpr (onlyKnown flag (mem_flags.mp member))
  exact (Finset.card_le_card within).trans_eq (Finset.card_range 3)

end Mode

namespace AccessTable

/-- The number of flags that are set in some rows. -/
def flagsIn (rows : List AccessRow) : Nat :=
  (rows.map fun row => row.mode.flags.card).sum

/-- The number of flags that are set in all cells together. -/
def flagCount (table : AccessTable) : Nat :=
  flagsIn table.rows

theorem flagCount_le {table : AccessTable} {most : Nat}
    (limited : ∀ row ∈ table.rows, row.mode.flags.card ≤ most) :
    table.flagCount ≤ most * table.size := by
  have sumLe := List.sum_le_card_nsmul (table.rows.map fun row => row.mode.flags.card) most (by
    simpa using limited)
  simpa [flagCount, flagsIn, size, Nat.mul_comm] using sumLe

/-- Inserting an access into rows that lack one of its flags sets a flag more. -/
theorem flagsIn_lt_mergeRows {rows : List AccessRow} {stage : StageId} {access : Access}
    (present : access.mode ≠ ∅)
    (lacking : ¬ (modeIn rows access.attr stage).includes access.mode = true) :
    flagsIn rows < flagsIn (mergeRows stage access rows) := by
  induction rows with
  | nil => simpa [flagsIn, mergeRows] using Mode.card_flags_pos present
  | cons row rows ih =>
      rw [modeIn_cons] at lacking
      rw [mergeRows]
      by_cases found : row.isFor access.attr stage = true
      · rw [if_pos found] at lacking ⊢
        have grows := Mode.card_flags_lt_union lacking
        simpa [flagsIn, AccessRow.widen] using grows
      · rw [if_neg found] at lacking ⊢
        have grows := ih lacking
        simpa [flagsIn] using grows

variable {table next : AccessTable} {stage : StageId} {access : Access} {changed : Bool}

/-- A merge that changes the table adds a flag and at most one row. -/
theorem Coherent.counts_of_merge (coherent : table.Coherent)
    (merged : table.merge stage access = .ok (next, changed)) :
    next.size ≤ table.size + changed.toNat
      ∧ table.flagCount + changed.toNat ≤ next.flagCount := by
  rcases coherent.cases_of_merge_ok merged with ⟨present, ⟨_, rfl, rfl⟩ | ⟨lacking, rfl, rfl⟩⟩
  · exact ⟨Nat.le_refl _, Nat.le_refl _⟩
  · constructor
    · have cells := congrArg List.length (map_cell_mergeRows table.rows stage access)
      rw [List.length_map] at cells
      simp only [size, ofRows, cells]
      split <;> simp
    · rw [modeAt_eq_modeIn] at lacking
      exact flagsIn_lt_mergeRows present lacking

/-- The changes of a run, refused or not, are at least as many as the rows it adds and at most
as many as the flags it adds. -/
theorem Coherent.counts_of_mergeAll (coherent : table.Coherent)
    (accesses : List (StageId × Access)) :
    (table.mergeAll accesses).table.size ≤ table.size + (table.mergeAll accesses).changes.length
      ∧ table.flagCount + (table.mergeAll accesses).changes.length ≤
        (table.mergeAll accesses).table.flagCount := by
  induction accesses generalizing table with
  | nil => exact ⟨Nat.le_refl _, Nat.le_refl _⟩
  | cons first rest ih =>
      obtain ⟨stage, access⟩ := first
      cases result : table.merge stage access with
      | error fault =>
          rw [mergeAll_cons_error result]
          exact ⟨Nat.le_refl _, Nat.le_refl _⟩
      | ok outcome =>
          obtain ⟨next, changed⟩ := outcome
          have lengthEq : (if changed then [(stage, access)] else []).length = changed.toNat := by
            cases changed <;> rfl
          have merged := coherent.counts_of_merge result
          have later := ih (coherent.merge result)
          rw [coherent.mergeAll_cons_ok result]
          dsimp only
          rw [List.length_append, lengthEq]
          omega

variable {declarations : List Declaration} {passes : Nat}

theorem Reached.counts_of_afterPasses (reached : table.Reached) (declarations : List Declaration)
    (passes : Nat) :
    (table.afterPasses declarations passes).size ≤
        table.size + table.changesWithin declarations passes
      ∧ table.flagCount + table.changesWithin declarations passes ≤
        (table.afterPasses declarations passes).flagCount := by
  induction passes with
  | zero => exact ⟨Nat.le_refl _, Nat.le_refl _⟩
  | succ passes ih =>
      have current : (table.afterPasses declarations passes).Coherent :=
        (reached.afterPasses passes).coherent
      have last := current.counts_of_mergeAll
        ((table.afterPasses declarations passes).resolve declarations)
      rw [afterPasses_succ_last, changesWithin_succ_last, pass]
      omega

/-- Every productive pass merges something. -/
theorem le_changesWithin
    (productive : ∀ index < passes,
      ((table.afterPasses declarations index).pass declarations).IsProductive) :
    passes ≤ table.changesWithin declarations passes := by
  induction passes with
  | zero => exact Nat.zero_le _
  | succ passes ih =>
      have before := ih fun index indexLt => productive index (Nat.lt_succ_of_lt indexLt)
      have changes := List.length_pos_iff.mpr (productive passes (Nat.lt_succ_self passes)).2
      rw [changesWithin_succ_last]
      omega

/-- A table whose flags are justified by known modes has known flags only. -/
theorem Justified.flagCount_le {declares : StageId → Usage → Prop}
    (justified : table.Justified declares) (coherent : table.Coherent)
    (known : ∀ stage access, Contributes declares stage access → access.mode.known = access.mode) :
    table.flagCount ≤ 3 * table.size := by
  apply AccessTable.flagCount_le
  intro row member
  apply Mode.card_flags_le_three
  intro flag present
  rw [← (coherent.mem_rows_iff.mp member).1] at present
  obtain ⟨mode, contributes, modeHas⟩ := justified _ _ flag present
  exact Mode.flag_lt_three (known _ _ contributes) modeHas

end AccessTable

namespace Dataset

variable {dataset : Dataset} {stages : StageId → Option Stage} {arena : ExpressionArena}
  {options : AnalysisOptions} {effort : Effort}

/-- A collection that succeeds makes at least as many merges as there are rows, and at most as
many as flags are set in the table: eight for each row, or three if only known flags are
contributed.  It merges what changes the table, in passes none of which is refused.  The last of
them merges nothing and every one before it merges something, so there is at most one pass more
than there are merges. -/
theorem merges_bound_by_flags
    (retabled : (dataset.retable stages arena options).answer = .ok effort) :
    let table := (dataset.retable stages arena options).state.table
    (table.size ≤ effort.merges ∧ effort.merges ≤ table.flagCount
        ∧ table.flagCount ≤ 8 * table.size)
      ∧ ((∀ stage access, Contributes (dataset.Offers stages arena) stage access →
          access.mode.known = access.mode) → effort.merges ≤ 3 * table.size)
      ∧ (0 < effort.passes ∧ effort.passes ≤ effort.merges + 1)
      ∧ ∃ declarations, dataset.declarations stages arena = .ok declarations
        ∧ table = AccessTable.afterPasses declarations effort.passes {}
        ∧ effort.merges = AccessTable.changesWithin declarations effort.passes {}
        ∧ ∀ index < effort.passes,
          let run := (AccessTable.afterPasses declarations index {}).pass declarations
          run.fault? = none ∧ (run.changes = [] ↔ index + 1 = effort.passes) := by
  intro table
  have collected : (dataset.collect stages arena options.maxPasses).answer = .ok effort := retabled
  obtain ⟨reached, justified, _⟩ := justified_and_covers_of_offers collected
  obtain ⟨declarations, passes, declared, productive, tableEq, quiet, rfl⟩ :=
    settled_of_collect_ok collected
  have emptySize : ({} : AccessTable).size = 0 := rfl
  have emptyCount : ({} : AccessTable).flagCount = 0 := rfl
  have counts := AccessTable.Reached.empty.counts_of_afterPasses declarations passes
  rw [emptySize, emptyCount, Nat.zero_add, ← tableEq] at counts
  obtain ⟨sizeLe, mergesLe⟩ := counts
  refine ⟨⟨sizeLe, mergesLe, AccessTable.flagCount_le fun row _ => row.mode.card_flags_le⟩, ?_,
    ⟨Nat.succ_pos passes, Nat.succ_le_succ (AccessTable.le_changesWithin productive)⟩,
    declarations, declared, ?_, ?_, ?_⟩
  · intro known
    exact mergesLe.trans (justified.flagCount_le reached.coherent known)
  · rw [AccessTable.afterPasses_succ_last, quiet]
    exact tableEq
  · rw [AccessTable.changesWithin_succ_last, quiet]
    rfl
  · intro index indexLt
    rcases Nat.lt_or_eq_of_le (Nat.le_of_lt_succ indexLt) with earlier | rfl
    · exact ⟨(productive index earlier).1, by simp [(productive index earlier).2]; omega⟩
    · simp [quiet]

/-- The known flags of a cell arrive in two passes, and all eight flags of another one arrive
one by one in a single pass.  Both take as many merges as they can. -/
theorem merges_bound_by_flags_portions :
    let portions : Stage :=
      { kind := .update
        usages := [.always (.read .age), .whenUsed (.write .age) .age,
          .whenUsed (.readSource .age) .age] }
    let single : Stage :=
      { kind := .update
        usages := [1, 2, 4, 8, 16, 32, 64, 128].map fun bits => .always ⟨.age, ⟨bits⟩⟩ }
    let dataset : Dataset := { id := ⟨0⟩, kind := .particle, owners := [⟨0⟩] }
    let inPortions := dataset.retable (fun _ => some portions) {} {}
    let oneByOne := dataset.retable (fun _ => some single) {} {}
    inPortions.answer = .ok ⟨3, 3⟩ ∧ oneByOne.answer = .ok ⟨2, 8⟩
      ∧ inPortions.state.table.flagCount = 3 ∧ oneByOne.state.table.flagCount = 8
      ∧ (∀ stage access, Contributes (dataset.Offers (fun _ => some portions) {}) stage access →
        access.mode.known = access.mode)
      ∧ 3 ≤ 3 * inPortions.state.table.size ∧ 8 ≤ oneByOne.state.table.flagCount
      ∧ oneByOne.state.table.flagCount ≤ 8 * oneByOne.state.table.size := by
  intro portions single dataset inPortions oneByOne
  have portionsAnswer : inPortions.answer = .ok ⟨3, 3⟩ := by decide
  have singleAnswer : oneByOne.answer = .ok ⟨2, 8⟩ := by decide +kernel
  have known : ∀ stage access,
      Contributes (dataset.Offers (fun _ => some portions) {}) stage access →
        access.mode.known = access.mode := by
    rintro stage access ⟨usage, ⟨_, usages, usagesEq, member⟩, _, rfl⟩
    cases usagesEq
    have allKnown : ∀ usage ∈ portions.usageSet {} dataset.kind.device,
        usage.access.mode.known = usage.access.mode := by decide
    exact allKnown usage member
  have bounds := merges_bound_by_flags portionsAnswer
  have singleBounds := merges_bound_by_flags singleAnswer
  exact ⟨portionsAnswer, singleAnswer, by decide, by decide, known, bounds.2.1 known,
    singleBounds.1.2.1, singleBounds.1.2.2⟩

end Dataset

end AttributeFlow
