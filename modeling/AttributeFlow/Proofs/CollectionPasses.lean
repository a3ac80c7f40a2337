import AttributeFlow.Proofs.MergeRuns
import Mathlib.Algebra.GroupWithZero.Nat
import Mathlib.Data.Nat.Find
import Mathlib.Logic.Function.Iterate

/-!
# Passes of a collection

A pass merges what resolves against the table at its beginning, so the tables of
a collection are the iterates of one function.  A collection runs through
productive passes, those that are not stopped and change something, until its
limit is used up, a pass is stopped or a pass changes nothing.

It reports every merge that changes the table, and every pass after its merges unless
one of them is refused.  What the first pass that is not productive leaves behind does
not depend on how many more were allowed.
-/

namespace AttributeFlow

/-- The run is not stopped and changes something. -/
def MergeRun.IsProductive (run : MergeRun) : Prop :=
  run.fault? = none ∧ run.changes ≠ []

namespace Event

def isPassCompleted : Event → Bool
  | .passCompleted _ _ _ _ _ => true
  | _ => false

/-- The number of passes that were carried through to their ends. -/
def completedPasses (events : List Event) : Nat :=
  events.countP isPassCompleted

theorem completedPasses_append (events others : List Event) :
    completedPasses (events ++ others) = completedPasses events + completedPasses others :=
  List.countP_append

end Event

namespace AccessTable

/-- One pass over some declarations. -/
def pass (declarations : List Declaration) (table : AccessTable) : MergeRun :=
  table.mergeAll (table.resolve declarations)

/-- The table after a number of passes. -/
def afterPasses (declarations : List Declaration) (passes : Nat) (table : AccessTable) :
    AccessTable :=
  (fun current => (current.pass declarations).table)^[passes] table

variable {declarations : List Declaration} {table : AccessTable}

@[simp]
theorem afterPasses_zero : table.afterPasses declarations 0 = table :=
  rfl

/-- The first of the passes comes before the others. -/
theorem afterPasses_succ (passes : Nat) :
    table.afterPasses declarations (passes + 1) =
      (table.pass declarations).table.afterPasses declarations passes :=
  Function.iterate_succ_apply _ passes table

/-- The last of the passes comes after the others. -/
theorem afterPasses_succ_last (passes : Nat) :
    table.afterPasses declarations (passes + 1) =
      ((table.afterPasses declarations passes).pass declarations).table :=
  Function.iterate_succ_apply' _ passes table

theorem Reached.afterPasses (reached : table.Reached) (passes : Nat) :
    (table.afterPasses declarations passes).Reached := by
  induction passes with
  | zero => exact reached
  | succ passes ih =>
      rw [afterPasses_succ_last]
      exact ih.mergeAll _

/-- The changes of the first passes. -/
def changesWithin (declarations : List Declaration) (passes : Nat) (table : AccessTable) : Nat :=
  ((List.range passes).map fun index =>
    ((table.afterPasses declarations index).pass declarations).changes.length).sum

theorem changesWithin_succ (passes : Nat) :
    table.changesWithin declarations (passes + 1) =
      (table.pass declarations).changes.length
        + (table.pass declarations).table.changesWithin declarations passes := by
  rw [changesWithin, List.range_succ_eq_map, List.map_cons, List.sum_cons, List.map_map]
  rfl

theorem changesWithin_succ_last (passes : Nat) :
    table.changesWithin declarations (passes + 1) =
      table.changesWithin declarations passes
        + ((table.afterPasses declarations passes).pass declarations).changes.length := by
  rw [changesWithin, List.range_succ, List.map_append, List.sum_append, List.map_singleton,
    List.sum_singleton]
  rfl

/-- The merges of a pass that change the table. -/
def mergeEvents (declarations : List Declaration) (table : AccessTable) : List Event :=
  (table.pass declarations).changes.map fun (stage, access) => .merged stage access

/-- What is reported in the course of a pass that is not stopped. -/
def passEvents (dataset : DatasetId) (declarations : List Declaration) (number : Nat)
    (table : AccessTable) : List Event :=
  table.mergeEvents declarations
    ++ [.passCompleted dataset number (table.resolve declarations).length
      (table.pass declarations).table.size (!(table.pass declarations).changes.isEmpty)]

/-- What is reported in the course of some passes that are not stopped, if others have been
made before. -/
def courseEvents (dataset : DatasetId) (declarations : List Declaration) (made passes : Nat)
    (table : AccessTable) : List Event :=
  (List.range passes).flatMap fun index =>
    passEvents dataset declarations (made + index + 1) (table.afterPasses declarations index)

/-- What a pass that is not productive leaves behind: it was stopped, or it changed nothing and
the collection is complete. -/
def lastReply (dataset : DatasetId) (declarations : List Declaration) (effort : Effort)
    (table : AccessTable) : Reply AccessTable (Except Fault Effort) :=
  match (table.pass declarations).fault? with
  | some fault =>
      { state := (table.pass declarations).table
        events := table.mergeEvents declarations
        answer := .error fault }
  | none =>
      { state := (table.pass declarations).table
        events := passEvents dataset declarations (effort.passes + 1) table
        answer := .ok ⟨effort.passes + 1, effort.merges⟩ }

variable {dataset : DatasetId} {effort : Effort} {limit allowed passes : Nat}

theorem state_lastReply :
    (lastReply dataset declarations effort table).state = (table.pass declarations).table := by
  rw [lastReply]
  split <;> rfl

theorem passes_of_lastReply_ok {spent : Effort}
    (complete : (lastReply dataset declarations effort table).answer = .ok spent) :
    spent.passes = effort.passes + 1 := by
  rw [lastReply] at complete
  split at complete <;> cases complete
  rfl

theorem courseEvents_succ (made passes : Nat) :
    courseEvents dataset declarations made (passes + 1) table =
      passEvents dataset declarations (made + 1) table
        ++ courseEvents dataset declarations (made + 1) passes (table.pass declarations).table := by
  rw [courseEvents, List.range_succ_eq_map, List.flatMap_cons, List.flatMap_map, courseEvents]
  simp only [afterPasses_zero, afterPasses_succ, Nat.add_zero, Nat.succ_eq_add_one]
  congr 1
  apply List.flatMap_congr
  intro index _
  rw [Nat.add_right_comm made 1 index, ← Nat.add_assoc]

theorem courseEvents_prefix (made : Nat) {fewer : Nat} (fewerLe : fewer ≤ passes) :
    courseEvents dataset declarations made fewer table <+:
      courseEvents dataset declarations made passes table := by
  obtain ⟨more, rfl⟩ := Nat.exists_eq_add_of_le fewerLe
  rw [courseEvents, courseEvents, List.range_add, List.flatMap_append]
  exact List.prefix_append _ _

theorem completedPasses_mergeEvents :
    Event.completedPasses (table.mergeEvents declarations) = 0 := by
  rw [Event.completedPasses, mergeEvents, List.countP_map, List.countP_eq_zero]
  intro change _
  exact Bool.false_ne_true

theorem completedPasses_passEvents (number : Nat) :
    Event.completedPasses (passEvents dataset declarations number table) = 1 := by
  rw [passEvents, Event.completedPasses_append, completedPasses_mergeEvents]
  rfl

theorem fault?_of_lastReply_error {fault : Fault}
    (stopped : (lastReply dataset declarations effort table).answer = .error fault) :
    (table.pass declarations).fault? = some fault := by
  rw [lastReply] at stopped
  split at stopped <;> cases stopped
  assumption

theorem completedPasses_of_lastReply_error {fault : Fault}
    (stopped : (lastReply dataset declarations effort table).answer = .error fault) :
    Event.completedPasses (lastReply dataset declarations effort table).events = 0 := by
  rw [lastReply] at stopped ⊢
  split at stopped <;> cases stopped
  exact completedPasses_mergeEvents

theorem completedPasses_courseEvents (made passes : Nat) :
    Event.completedPasses (courseEvents dataset declarations made passes table) = passes := by
  induction passes generalizing made table with
  | zero => rfl
  | succ passes ih =>
      rw [courseEvents_succ, Event.completedPasses_append, completedPasses_passEvents, ih,
        Nat.add_comm]

theorem collectPasses_of_productive (productive : (table.pass declarations).IsProductive) :
    collectPasses dataset declarations limit (allowed + 1) table effort =
      let later := collectPasses dataset declarations limit allowed (table.pass declarations).table
        ⟨effort.passes + 1, effort.merges + (table.pass declarations).changes.length⟩
      { later with
        events := passEvents dataset declarations (effort.passes + 1) table ++ later.events } := by
  have passEq : table.mergeAll (table.resolve declarations) = table.pass declarations := rfl
  have changed : (table.pass declarations).changes.isEmpty = false := by
    simpa using productive.2
  simp only [collectPasses, passEq, productive.1, changed, Bool.not_false, if_true, passEvents,
    mergeEvents]

/-- Productive passes come first, and what is left is a collection from the table after them. -/
theorem collectPasses_add
    (productive : ∀ index < passes,
      ((table.afterPasses declarations index).pass declarations).IsProductive) :
    collectPasses dataset declarations limit (passes + allowed) table effort =
      let later := collectPasses dataset declarations limit allowed
        (table.afterPasses declarations passes)
        ⟨effort.passes + passes, effort.merges + table.changesWithin declarations passes⟩
      { later with
        events := courseEvents dataset declarations effort.passes passes table ++ later.events } := by
  induction passes generalizing table effort with
  | zero =>
      rw [Nat.zero_add]
      rfl
  | succ passes ih =>
      have first : (table.pass declarations).IsProductive := productive 0 (Nat.succ_pos passes)
      have others : ∀ index < passes,
          (((table.pass declarations).table.afterPasses declarations index).pass
            declarations).IsProductive := by
        intro index indexLt
        rw [← afterPasses_succ]
        exact productive (index + 1) (Nat.succ_lt_succ indexLt)
      rw [Nat.add_right_comm, collectPasses_of_productive first, ih others]
      simp only [afterPasses_succ, changesWithin_succ, courseEvents_succ, List.append_assoc,
        Nat.add_assoc, Nat.add_comm 1 passes]

theorem collectPasses_of_not_productive (last : ¬ (table.pass declarations).IsProductive) :
    collectPasses dataset declarations limit (allowed + 1) table effort =
      lastReply dataset declarations effort table := by
  have passEq : table.mergeAll (table.resolve declarations) = table.pass declarations := rfl
  cases stopped : (table.pass declarations).fault? with
  | some fault => simp only [collectPasses, passEq, stopped, lastReply, mergeEvents]
  | none =>
      have unchanged : (table.pass declarations).changes = [] := by
        by_contra changed
        exact last ⟨stopped, changed⟩
      simp [collectPasses, passEq, stopped, lastReply, passEvents, mergeEvents, unchanged]

/-- With more passes allowed than there are productive ones to begin with, a collection ends
with the pass that comes after them. -/
theorem collectPasses_of_lt
    (productive : ∀ index < passes,
      ((table.afterPasses declarations index).pass declarations).IsProductive)
    (last : ¬ ((table.afterPasses declarations passes).pass declarations).IsProductive)
    (passesLt : passes < allowed) :
    collectPasses dataset declarations limit allowed table effort =
      let later := lastReply dataset declarations
        ⟨effort.passes + passes, effort.merges + table.changesWithin declarations passes⟩
        (table.afterPasses declarations passes)
      { later with
        events := courseEvents dataset declarations effort.passes passes table ++ later.events } := by
  obtain ⟨spare, rfl⟩ := Nat.exists_eq_add_of_lt passesLt
  rw [Nat.add_assoc, collectPasses_add productive, collectPasses_of_not_productive last]

/-- With no more passes allowed than productive ones follow, a collection runs out of them. -/
theorem collectPasses_of_le
    (productive : ∀ index < allowed,
      ((table.afterPasses declarations index).pass declarations).IsProductive) :
    collectPasses dataset declarations limit allowed table effort =
      { state := table.afterPasses declarations allowed
        events := courseEvents dataset declarations effort.passes allowed table
        answer := .error (.notConverged dataset limit) } := by
  have unrolled : collectPasses dataset declarations limit (allowed + 0) table effort = _ :=
    collectPasses_add productive
  simpa only [Nat.add_zero, collectPasses, List.append_nil] using unrolled

/-- How a collection may end after a number of productive passes. -/
inductive Ends (dataset : DatasetId) (declarations : List Declaration) (limit allowed : Nat)
    (table : AccessTable) (effort : Effort) (passes : Nat) :
    AccessTable → Except Fault Effort → Prop
  | exhausted (usedUp : passes = allowed) :
      Ends dataset declarations limit allowed table effort passes
        (table.afterPasses declarations passes) (.error (.notConverged dataset limit))
  | stopped {fault : Fault} (remains : passes < allowed)
      (refused : ((table.afterPasses declarations passes).pass declarations).fault? = some fault) :
      Ends dataset declarations limit allowed table effort passes
        (table.afterPasses declarations (passes + 1)) (.error fault)
  | settled (remains : passes < allowed)
      (quiet : (table.afterPasses declarations passes).pass declarations =
        { table := table.afterPasses declarations passes }) :
      Ends dataset declarations limit allowed table effort passes
        (table.afterPasses declarations passes)
        (.ok ⟨effort.passes + passes + 1,
          effort.merges + table.changesWithin declarations passes⟩)

/-- The first of the passes that are allowed are productive, and the next one is not. -/
theorem exists_course (declarations : List Declaration) (allowed : Nat) (table : AccessTable) :
    ∃ passes ≤ allowed,
      (∀ index < passes,
        ((table.afterPasses declarations index).pass declarations).IsProductive)
      ∧ (passes < allowed →
        ¬ ((table.afterPasses declarations passes).pass declarations).IsProductive) := by
  classical
  by_cases allProductive : ∀ index < allowed,
      ((table.afterPasses declarations index).pass declarations).IsProductive
  · exact ⟨allowed, Nat.le_refl allowed, allProductive, fun less => absurd less (Nat.lt_irrefl _)⟩
  · push Not at allProductive
    let passes := Nat.find allProductive
    obtain ⟨passesLt, last⟩ := Nat.find_spec allProductive
    refine ⟨passes, Nat.le_of_lt passesLt, ?_, fun _ => last⟩
    intro index indexLt
    by_contra earlier
    exact Nat.find_min allProductive indexLt ⟨Nat.lt_trans indexLt passesLt, earlier⟩

/-- What a collection does. -/
theorem collectPasses_ends (dataset : DatasetId) (declarations : List Declaration)
    (limit allowed : Nat) (table : AccessTable) (effort : Effort) :
    ∃ passes ≤ allowed,
      (∀ index < passes,
        ((table.afterPasses declarations index).pass declarations).IsProductive)
      ∧ Ends dataset declarations limit allowed table effort passes
        (collectPasses dataset declarations limit allowed table effort).state
        (collectPasses dataset declarations limit allowed table effort).answer := by
  obtain ⟨passes, passesLe, productive, last⟩ := exists_course declarations allowed table
  refine ⟨passes, passesLe, productive, ?_⟩
  rcases Nat.lt_or_eq_of_le passesLe with passesLt | rfl
  · rw [collectPasses_of_lt productive (last passesLt) passesLt]
    cases stopped : ((table.afterPasses declarations passes).pass declarations).fault? with
    | some fault =>
        simp only [lastReply, stopped, ← afterPasses_succ_last]
        exact .stopped passesLt stopped
    | none =>
        have quiet : (table.afterPasses declarations passes).pass declarations =
            { table := table.afterPasses declarations passes } := by
          apply mergeAll_eq_self stopped
          by_contra changed
          exact last passesLt ⟨stopped, changed⟩
        simp only [lastReply, quiet]
        exact .settled passesLt quiet
  · rw [collectPasses_of_le productive]
    exact .exhausted rfl

end AccessTable

namespace Dataset

variable {dataset : Dataset} {stages : StageId → Option Stage} {arena : ExpressionArena}
  {maxPasses : Option UInt64}

theorem collect_of_declarations {declarations : List Declaration}
    (declared : dataset.declarations stages arena = .ok declarations)
    (somePass : maxPasses ≠ some 0) :
    dataset.collect stages arena maxPasses =
      let limit := maxPasses.elim (Declaration.passLimit declarations) UInt64.toNat
      collectPasses dataset.id declarations limit limit {} {} := by
  simp only [collect, if_neg somePass, declared]

theorem declarations_of_collect_ok {effort : Effort}
    (collected : (dataset.collect stages arena maxPasses).answer = .ok effort) :
    maxPasses ≠ some 0 ∧ ∃ declarations, dataset.declarations stages arena = .ok declarations := by
  rw [collect] at collected
  by_cases noPass : maxPasses = some 0
  · rw [if_pos noPass] at collected
    cases collected
  · rw [if_neg noPass] at collected
    refine ⟨noPass, ?_⟩
    cases declared : dataset.declarations stages arena with
    | error fault =>
        rw [declared] at collected
        cases collected
    | ok declarations => exact ⟨declarations, rfl⟩

/-- A collection that succeeds has gone through productive passes to a table on
which one pass more does nothing. -/
theorem settled_of_collect_ok {effort : Effort}
    (collected : (dataset.collect stages arena maxPasses).answer = .ok effort) :
    ∃ declarations passes, dataset.declarations stages arena = .ok declarations
      ∧ (∀ index < passes,
        ((AccessTable.afterPasses declarations index {}).pass declarations).IsProductive)
      ∧ (dataset.collect stages arena maxPasses).state =
        AccessTable.afterPasses declarations passes {}
      ∧ (AccessTable.afterPasses declarations passes {}).pass declarations =
        { table := AccessTable.afterPasses declarations passes {} }
      ∧ effort = ⟨passes + 1, AccessTable.changesWithin declarations passes {}⟩ := by
  obtain ⟨somePass, declarations, declared⟩ := declarations_of_collect_ok collected
  rw [collect_of_declarations declared somePass] at collected ⊢
  generalize maxPasses.elim (Declaration.passLimit declarations) UInt64.toNat = limit at collected ⊢
  obtain ⟨passes, _, productive, ends⟩ :=
    AccessTable.collectPasses_ends dataset.id declarations limit limit {} {}
  refine ⟨declarations, passes, declared, productive, ?_⟩
  revert collected ends
  generalize collectPasses dataset.id declarations limit limit {} {} = reply
  obtain ⟨state, events, answer⟩ := reply
  rintro answerEq (usedUp | ⟨remains, refused⟩ | ⟨remains, quiet⟩)
  · cases answerEq
  · cases answerEq
  · cases answerEq
    exact ⟨rfl, quiet, by simp⟩

theorem reached_of_collect_ok {effort : Effort}
    (collected : (dataset.collect stages arena maxPasses).answer = .ok effort) :
    (dataset.collect stages arena maxPasses).state.Reached := by
  obtain ⟨_, passes, _, _, stateEq, _⟩ := settled_of_collect_ok collected
  rw [stateEq]
  exact AccessTable.Reached.empty.afterPasses passes

end Dataset

end AttributeFlow
