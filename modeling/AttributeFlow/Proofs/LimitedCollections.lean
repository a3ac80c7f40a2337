import AttributeFlow.Proofs.PassBound

/-!
# Collections with a limit

Without a limit that is set, a collection has as many passes as it needs.  A limit does not
change its course.  If it allows the pass in which the collection ends, complete or refused,
nothing differs at all.  Otherwise the collection is cut off after as many passes as are allowed,
and has the table and the reports of the one without a limit up to there.
-/

namespace AttributeFlow

namespace AccessTable

variable {table : AccessTable} {declarations : List Declaration}

theorem afterPasses_add (first second : Nat) :
    table.afterPasses declarations (first + second) =
      (table.afterPasses declarations first).afterPasses declarations second := by
  rw [afterPasses, Nat.add_comm, Function.iterate_add_apply]
  rfl

/-- Passes add flags and take none away. -/
theorem Reached.within_afterPasses (reached : table.Reached) (passes : Nat) :
    table.Within (table.afterPasses declarations passes) := by
  induction passes with
  | zero => exact Within.refl table
  | succ passes ih =>
      rw [afterPasses_succ_last]
      exact ih.trans ((reached.afterPasses passes).coherent.within_mergeAll _)

end AccessTable

namespace Dataset

variable {dataset : Dataset} {stages : StageId → Option Stage} {arena : ExpressionArena}
  {options : AnalysisOptions}

/-- A limit cut the collection off.  It made as many passes as the limit allows, with the table
and the reports of the full collection up to there, from where that one goes on. -/
structure CutsOff (dataset : Dataset) (stages : StageId → Option Stage) (arena : ExpressionArena)
    (limit : Nat) (full limited : Reply Dataset (Except Fault Effort)) : Prop where
  answer_eq : limited.answer = .error (.notConverged dataset.id limit)
  table_eq : ∀ declarations, dataset.declarations stages arena = .ok declarations →
    limited.state.table = AccessTable.afterPasses declarations limit {}
  goesOn : ∀ declarations, dataset.declarations stages arena = .ok declarations →
    ∃ more, full.state.table = limited.state.table.afterPasses declarations more
  within : limited.state.table.Within full.state.table
  completed_eq : Event.completedPasses limited.events = limit
  reported : limited.events <+: full.events

/-- A limit of no passes is no exception: the collection then runs out of passes at once. -/
theorem collect_eq_collectPasses {declarations : List Declaration}
    (declared : dataset.declarations stages arena = .ok declarations)
    (maxPasses : Option UInt64) :
    dataset.collect stages arena maxPasses =
      let limit := maxPasses.elim (Declaration.passLimit declarations) UInt64.toNat
      collectPasses dataset.id declarations limit limit {} {} := by
  by_cases noPass : maxPasses = some 0
  · rw [collect, if_pos noPass, noPass]
    rfl
  · exact collect_of_declarations declared noPass

section Declared

variable {declarations : List Declaration} {passes : Nat}
  (declared : dataset.declarations stages arena = .ok declarations)

include declared

/-- A limit that is no greater than the number of productive passes is used up. -/
theorem collect_of_le {limit : UInt64}
    (productive : ∀ index < limit.toNat,
      ((AccessTable.afterPasses declarations index {}).pass declarations).IsProductive) :
    dataset.collect stages arena (some limit) =
      { state := AccessTable.afterPasses declarations limit.toNat {}
        events := AccessTable.courseEvents dataset.id declarations 0 limit.toNat {}
        answer := .error (.notConverged dataset.id limit.toNat) } := by
  rw [collect_eq_collectPasses declared]
  exact AccessTable.collectPasses_of_le productive

variable (productive : ∀ index < passes,
    ((AccessTable.afterPasses declarations index {}).pass declarations).IsProductive)
  (last : ¬ ((AccessTable.afterPasses declarations passes {}).pass declarations).IsProductive)

include productive last

/-- A collection that is allowed more passes than it has productive ones to begin with ends with
the pass that comes after them. -/
theorem collect_of_lt {maxPasses : Option UInt64}
    (passesLt : passes < maxPasses.elim (Declaration.passLimit declarations) UInt64.toNat) :
    dataset.collect stages arena maxPasses =
      let later := AccessTable.lastReply dataset.id declarations
        ⟨passes, AccessTable.changesWithin declarations passes {}⟩
        (AccessTable.afterPasses declarations passes {})
      { later with
        events := AccessTable.courseEvents dataset.id declarations 0 passes {} ++ later.events } := by
  let limit := maxPasses.elim (Declaration.passLimit declarations) UInt64.toNat
  have unrolled : collectPasses dataset.id declarations limit limit {} {} = _ :=
    AccessTable.collectPasses_of_lt productive last passesLt
  rw [Nat.zero_add, Nat.zero_add] at unrolled
  rw [collect_eq_collectPasses declared]
  exact unrolled

/-- The declarations give a limit that allows the pass with which the collection ends. -/
theorem collect_unlimited :
    dataset.collect stages arena none =
      let later := AccessTable.lastReply dataset.id declarations
        ⟨passes, AccessTable.changesWithin declarations passes {}⟩
        (AccessTable.afterPasses declarations passes {})
      { later with
        events := AccessTable.courseEvents dataset.id declarations 0 passes {} ++ later.events } :=
  collect_of_lt declared productive last (AccessTable.lt_passLimit productive)

theorem retable_eq_of_lt {limit : UInt64} (enough : passes < limit.toNat) :
    dataset.retable stages arena { options with maxPasses := some limit } =
      dataset.retable stages arena { options with maxPasses := none } := by
  have limitedEq : dataset.collect stages arena (some limit) = _ :=
    collect_of_lt declared productive last enough
  rw [retable, limitedEq, retable, collect_unlimited declared productive last]

theorem cutsOff_of_le {limit : UInt64} (cut : limit.toNat ≤ passes) :
    dataset.CutsOff stages arena limit.toNat
      (dataset.retable stages arena { options with maxPasses := none })
      (dataset.retable stages arena { options with maxPasses := some limit }) := by
  have limitedEq : dataset.collect stages arena (some limit) = _ :=
    collect_of_le declared fun index indexLt =>
      productive index (Nat.lt_of_lt_of_le indexLt cut)
  have fullEq := collect_unlimited declared productive last
  obtain ⟨more, moreEq⟩ : ∃ more, passes + 1 = limit.toNat + more :=
    Nat.exists_eq_add_of_le (Nat.le_succ_of_le cut)
  have goesOn : (dataset.collect stages arena none).state =
      (AccessTable.afterPasses declarations limit.toNat {}).afterPasses declarations more := by
    rw [fullEq, AccessTable.state_lastReply, ← AccessTable.afterPasses_succ_last, moreEq,
      AccessTable.afterPasses_add]
  simp only [retable, Reply.mapState, limitedEq, goesOn]
  exact {
    answer_eq := rfl
    table_eq := by
      intro others otherDeclared
      cases declared.symm.trans otherDeclared
      rfl
    goesOn := by
      intro others otherDeclared
      cases declared.symm.trans otherDeclared
      exact ⟨more, rfl⟩
    within := (AccessTable.Reached.empty.afterPasses limit.toNat).within_afterPasses more
    completed_eq := AccessTable.completedPasses_courseEvents 0 limit.toNat
    reported := by
      rw [fullEq]
      exact (AccessTable.courseEvents_prefix 0 cut).trans (List.prefix_append _ _) }

end Declared

/-- An owner that does not exist stops a collection before its first pass, unless no pass at
all is allowed. -/
theorem retable_of_missing {fault : Fault}
    (missing : dataset.declarations stages arena = .error fault)
    (somePass : options.maxPasses ≠ some 0) :
    dataset.retable stages arena options = ⟨{ dataset with table := {} }, [], .error fault⟩ := by
  rw [retable, collect, if_neg somePass, missing]
  rfl

/-- A limit of no passes cuts off even a collection that is stopped before its first one. -/
theorem cutsOff_of_missing {fault : Fault} {limit : UInt64}
    (missing : dataset.declarations stages arena = .error fault) (noPass : limit.toNat = 0) :
    dataset.CutsOff stages arena limit.toNat ⟨{ dataset with table := {} }, [], .error fault⟩
      (dataset.retable stages arena { options with maxPasses := some limit }) := by
  obtain rfl : limit = 0 := UInt64.toNat_inj.mp noPass
  exact {
    answer_eq := rfl
    table_eq := by simp [missing]
    goesOn := by simp [missing]
    within := AccessTable.Within.refl _
    completed_eq := rfl
    reported := List.nil_prefix }

/-- Take the collection without a limit, and any limit.  If the collection is complete after some
passes and the limit allows as many, or if it is refused in some pass and the limit allows that
one, then the limit makes no difference: table, reports and answer are the same.  With fewer
passes allowed, the collection is cut off after these, with the table and the reports of the
full one up to there. -/
theorem limit_only_truncates (dataset : Dataset) (stages : StageId → Option Stage)
    (arena : ExpressionArena) (options : AnalysisOptions) (limit : UInt64) :
    let full := dataset.retable stages arena { options with maxPasses := none }
    let limited := dataset.retable stages arena { options with maxPasses := some limit }
    (∀ effort, full.answer = .ok effort →
        (effort.passes ≤ limit.toNat → limited = full)
          ∧ (limit.toNat < effort.passes →
            dataset.CutsOff stages arena limit.toNat full limited))
      ∧ ∀ fault, full.answer = .error fault →
        let completed := Event.completedPasses full.events
        (∀ declarations, dataset.declarations stages arena = .ok declarations →
            ((AccessTable.afterPasses declarations completed {}).pass declarations).fault? =
              some fault)
          ∧ (completed + 1 ≤ limit.toNat → limited = full)
          ∧ (limit.toNat < completed + 1 →
            dataset.CutsOff stages arena limit.toNat full limited) := by
  intro full limited
  cases declared : dataset.declarations stages arena with
  | error missing =>
      have fullEq : full = ⟨{ dataset with table := {} }, [], .error missing⟩ :=
        retable_of_missing declared nofun
      rw [fullEq]
      refine ⟨nofun, fun fault _ => ⟨nofun, fun enough => ?_, fun fewer => ?_⟩⟩
      · apply retable_of_missing declared
        rintro ⟨⟩
        exact absurd enough (Nat.not_succ_le_zero 0)
      · exact cutsOff_of_missing declared (Nat.lt_one_iff.mp fewer)
  | ok declarations =>
      obtain ⟨passes, _, productive, last⟩ :=
        AccessTable.exists_course declarations (Declaration.passLimit declarations) {}
      have last := last (AccessTable.lt_passLimit productive)
      have fullEq := collect_unlimited declared productive last
      have same : passes < limit.toNat → limited = full :=
        retable_eq_of_lt declared productive last
      have cut : limit.toNat ≤ passes → dataset.CutsOff stages arena limit.toNat full limited :=
        cutsOff_of_le declared productive last
      constructor
      · intro effort complete
        have passesEq : effort.passes = passes + 1 := by
          simp only [full, retable, Reply.mapState, fullEq] at complete
          exact AccessTable.passes_of_lastReply_ok complete
        rw [passesEq]
        exact ⟨same, fun fewer => cut (Nat.le_of_lt_succ fewer)⟩
      · intro fault stopped completed
        simp only [full, retable, Reply.mapState, fullEq] at stopped
        have completedEq : completed = passes := by
          simp only [completed, full, retable, Reply.mapState, fullEq]
          rw [Event.completedPasses_append, AccessTable.completedPasses_courseEvents,
            AccessTable.completedPasses_of_lastReply_error stopped, Nat.add_zero]
        rw [completedEq]
        refine ⟨?_, same, fun fewer => cut (Nat.le_of_lt_succ fewer)⟩
        rintro _ ⟨⟩
        exact AccessTable.fault?_of_lastReply_error stopped

/-- One stage triggers a chain of accesses, and is complete after four passes with the last of
which nothing changes: four passes are enough, three are not.  The other one reaches an access
without a mode in its second pass, which one pass does not get to. -/
theorem limit_only_truncates_chain :
    let chain : Stage :=
      { kind := .update
        usages := [.whenUsed (.read .velocity) .age, .whenUsed (.write .age) .position,
          .always (.read .position)] }
    let refused : Stage :=
      { kind := .update
        usages := [.always (.read .position), .whenUsed ⟨.size, ⟨0⟩⟩ .position] }
    let dataset : Dataset := { id := ⟨0⟩, kind := .particle, owners := [⟨0⟩] }
    let full (stage : Stage) := dataset.retable (fun _ => some stage) {} {}
    let limited (stage : Stage) (limit : UInt64) :=
      dataset.retable (fun _ => some stage) {} { maxPasses := some limit }
    (full chain).answer = .ok ⟨4, 3⟩
      ∧ limited chain 4 = full chain
      ∧ dataset.CutsOff (fun _ => some chain) {} 3 (full chain) (limited chain 3)
      ∧ (full refused).answer = .error (.emptyAccess .size ⟨0⟩)
      ∧ Event.completedPasses (full refused).events + 1 = 2
      ∧ limited refused 2 = full refused
      ∧ dataset.CutsOff (fun _ => some refused) {} 1 (full refused) (limited refused 1)
      ∧ (limited refused 1).answer = .error (.notConverged ⟨0⟩ 1) := by
  intro chain refused dataset full limited
  have complete : (full chain).answer = .ok ⟨4, 3⟩ := by decide
  have stopped : (full refused).answer = .error (.emptyAccess .size ⟨0⟩) := by decide
  have truncates (stage : Stage) (limit : UInt64) :=
    limit_only_truncates dataset (fun _ => some stage) {} {} limit
  have cutRefused := ((truncates refused 1).2 _ stopped).2.2 (by decide)
  exact ⟨complete, ((truncates chain 4).1 _ complete).1 (by decide),
    ((truncates chain 3).1 _ complete).2 (by decide), stopped, by decide,
    ((truncates refused 2).2 _ stopped).2.1 (by decide), cutRefused, cutRefused.answer_eq⟩

end Dataset

end AttributeFlow
