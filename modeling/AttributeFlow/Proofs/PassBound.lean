import AttributeFlow.Proofs.LeastUse
import Mathlib.Data.List.Perm.Subperm

/-!
# How many passes a collection takes

What a pass merges depends only on which attributes are used when it begins.  If
a pass brings no new attribute, the next one therefore merges what is already
covered and changes nothing.  So of the productive passes all but the last bring
a new attribute, and their number is at most one more than the number of
attributes, whatever flags the modes have.

There are no more attributes than cells, which is far below the limit that the
declarations give.
-/

namespace AttributeFlow

namespace AccessTable

variable {table : AccessTable} {declarations : List Declaration}

theorem attributes_subset_pass (reached : table.Reached) :
    table.attributes ⊆ (table.pass declarations).table.attributes := by
  have coherent := reached.coherent
  have nextCoherent := (reached.mergeAll (table.resolve declarations)).coherent
  intro attr member
  rw [← contains_iff_mem] at member ⊢
  exact (coherent.within_mergeAll _).contains coherent nextCoherent member

/-- A pass that comes after one without new attributes does nothing. -/
theorem pass_eq_self_of_no_new (reached : table.Reached)
    (finished : (table.pass declarations).fault? = none)
    (noneNew : (table.pass declarations).table.attributes ⊆ table.attributes) :
    (table.pass declarations).table.pass declarations =
      { table := (table.pass declarations).table } := by
  have sameContains : (table.pass declarations).table.contains = table.contains := by
    funext attr
    rw [Bool.eq_iff_iff, contains_iff_mem, contains_iff_mem]
    exact ⟨fun member => noneNew member, fun member => attributes_subset_pass reached member⟩
  have sameResolved : (table.pass declarations).table.resolve declarations =
      table.resolve declarations := by
    rw [resolve, sameContains, resolve]
  have nextCoherent : (table.pass declarations).table.Coherent := (reached.mergeAll _).coherent
  have covers := reached.coherent.covers_of_mergeAll finished
  rw [pass, sameResolved]
  exact nextCoherent.mergeAll_of_covers covers

theorem attributes_length_lt_pass (reached : table.Reached)
    (productive : (table.pass declarations).IsProductive)
    (nextProductive : ((table.pass declarations).table.pass declarations).IsProductive) :
    table.attributes.length < (table.pass declarations).table.attributes.length := by
  have someNew : ¬ (table.pass declarations).table.attributes ⊆ table.attributes := by
    intro noneNew
    rw [pass_eq_self_of_no_new reached productive.1 noneNew] at nextProductive
    exact nextProductive.2 rfl
  rw [List.subset_def] at someNew
  push Not at someNew
  obtain ⟨attr, member, isNew⟩ := someNew
  have distinct : (attr :: table.attributes).Nodup :=
    List.nodup_cons.mpr ⟨isNew, reached.coherent.nodup_attributes⟩
  have within : attr :: table.attributes ⊆ (table.pass declarations).table.attributes :=
    List.cons_subset.mpr ⟨member, attributes_subset_pass reached⟩
  exact (List.subperm_of_subset distinct within).length_le

theorem attributes_length_le_pass (reached : table.Reached) :
    table.attributes.length ≤ (table.pass declarations).table.attributes.length := by
  have distinct := reached.coherent.nodup_attributes
  exact (List.subperm_of_subset distinct (attributes_subset_pass reached)).length_le

/-- A pass that is followed by a productive one has brought an attribute, and so
have all productive passes before it. -/
theorem le_attributes_length (reached : table.Reached) {passes : Nat}
    (productive : ∀ index ≤ passes,
      ((table.afterPasses declarations index).pass declarations).IsProductive) :
    passes ≤ (table.afterPasses declarations passes).attributes.length := by
  -- The last productive pass need not bring an attribute, so the induction runs over
  -- passes that are followed by another productive one.
  induction passes with
  | zero => exact Nat.zero_le _
  | succ passes ih =>
      have before := ih fun index indexLe => productive index (Nat.le_succ_of_le indexLe)
      have current := productive passes (Nat.le_succ passes)
      have next := productive (passes + 1) (Nat.le_refl _)
      rw [afterPasses_succ_last] at next ⊢
      have grows := attributes_length_lt_pass (reached.afterPasses passes) current next
      omega

theorem passes_le_attributes_length (reached : table.Reached) {passes : Nat}
    (productive : ∀ index < passes,
      ((table.afterPasses declarations index).pass declarations).IsProductive) :
    passes ≤ (table.afterPasses declarations passes).attributes.length + 1 := by
  cases passes with
  | zero => exact Nat.zero_le _
  | succ passes =>
      have before := le_attributes_length reached fun index indexLe =>
        productive index (Nat.lt_succ_of_le indexLe)
      have lastReached : (table.afterPasses declarations passes).Reached :=
        reached.afterPasses passes
      have kept : _ ≤ ((table.afterPasses declarations passes).pass
          declarations).table.attributes.length := attributes_length_le_pass lastReached
      rw [afterPasses_succ_last]
      omega

theorem attributes_length_le_cells (reached : table.Reached)
    (justified : table.Justified fun stage usage => ⟨stage, usage⟩ ∈ declarations) :
    table.attributes.length ≤ (Declaration.cells declarations).length := by
  have within : table.attributes ⊆ (Declaration.cells declarations).map Prod.snd := by
    intro attr member
    have used := justified.used reached.coherent (contains_iff_mem.mpr member)
    obtain ⟨stage, mode, usage, listed, _, accessEq⟩ := used_iff_contributes.mp used
    have attrEq : usage.access.attr = attr := congrArg Access.attr accessEq
    have cellMem : (stage, attr) ∈ Declaration.cells declarations := by
      rw [Declaration.cells, List.mem_eraseDups, ← attrEq]
      exact List.mem_map_of_mem (f := Declaration.cell) listed
    exact List.mem_map_of_mem (f := Prod.snd) cellMem
  have distinct := reached.coherent.nodup_attributes
  have atMost := (List.subperm_of_subset distinct within).length_le
  rwa [List.length_map] at atMost

theorem cells_ne_nil_of_productive (productive : (table.pass declarations).IsProductive) :
    Declaration.cells declarations ≠ [] := by
  intro noCells
  have noDeclarations : declarations = [] := by
    rw [List.eq_nil_iff_forall_not_mem]
    intro declaration member
    have cellMem : declaration.cell ∈ Declaration.cells declarations :=
      List.mem_eraseDups.mpr (List.mem_map_of_mem member)
    rw [noCells] at cellMem
    cases cellMem
  subst noDeclarations
  exact productive.2 rfl

/-- Productive passes over the declarations end before the limit that the
declarations give. -/
theorem lt_passLimit {passes : Nat}
    (productive : ∀ index < passes,
      ((afterPasses declarations index {}).pass declarations).IsProductive) :
    passes < Declaration.passLimit declarations := by
  rw [Declaration.passLimit]
  cases passes with
  | zero => omega
  | succ passes =>
      have brought := le_attributes_length Reached.empty fun index indexLe =>
        productive index (Nat.lt_succ_of_le indexLe)
      have atMost : (afterPasses declarations passes {}).attributes.length ≤
          (Declaration.cells declarations).length := by
        apply attributes_length_le_cells (Reached.empty.afterPasses passes)
        apply justified_empty.afterPasses Reached.empty
        exact fun stage usage listed _ => listed
      have someCell := cells_ne_nil_of_productive (productive 0 (Nat.succ_pos passes))
      have positive := List.length_pos_iff.mpr someCell
      omega

end AccessTable

namespace Dataset

variable {dataset : Dataset} {stages : StageId → Option Stage} {arena : ExpressionArena}
  {options : AnalysisOptions}

theorem passes_le_of_collect_ok {maxPasses : Option UInt64} {effort : Effort}
    (collected : (dataset.collect stages arena maxPasses).answer = .ok effort) :
    effort.passes ≤ (dataset.collect stages arena maxPasses).state.attributes.length + 2 := by
  obtain ⟨declarations, passes, _, productive, stateEq, _, rfl⟩ := settled_of_collect_ok collected
  have bound := AccessTable.passes_le_attributes_length AccessTable.Reached.empty productive
  rw [stateEq]
  exact Nat.succ_le_succ bound

/-- Without a limit that is set, a collection fails only at an owner that does not
exist or at an access without a mode that takes place. -/
theorem fault_of_collect_error {fault : Fault}
    (failed : (dataset.collect stages arena none).answer = .error fault) :
    (∃ owner ∈ dataset.owners, stages owner = none ∧ fault = .missingOwner owner dataset.id)
      ∨ ∃ declarations, dataset.declarations stages arena = .ok declarations
        ∧ ∃ stage access,
          MakesEmptyAccess (fun stage usage => ⟨stage, usage⟩ ∈ declarations) stage access
            ∧ fault = .emptyAccess access.attr stage := by
  cases declared : dataset.declarations stages arena with
  | error declarationsFault =>
      simp only [collect, declared, reduceCtorEq, if_false] at failed
      cases failed
      exact Or.inl (missingOwner_of_declarations declared)
  | ok declarations =>
      rw [collect_of_declarations declared (by simp)] at failed
      simp only [Option.elim_none] at failed
      obtain ⟨passes, _, productive, ends⟩ := AccessTable.collectPasses_ends dataset.id declarations
        (Declaration.passLimit declarations) (Declaration.passLimit declarations) {} {}
      have notUsedUp := AccessTable.lt_passLimit productive
      revert failed ends
      generalize collectPasses dataset.id declarations _ _ {} {} = reply
      obtain ⟨state, events, answer⟩ := reply
      intro failed ends
      cases ends with
      | exhausted usedUp => omega
      | stopped _ refused =>
          cases failed
          have coherent : (AccessTable.afterPasses declarations passes {}).Coherent :=
            (AccessTable.Reached.empty.afterPasses passes).coherent
          -- Merging gives the table no flag for an access without a mode, so whatever has been
          -- triggered so far has been triggered by usages with a mode.
          have justified : (AccessTable.afterPasses declarations passes {}).Justified
              (Effective fun stage usage => ⟨stage, usage⟩ ∈ declarations) := by
            apply AccessTable.justified_empty.afterPasses AccessTable.Reached.empty
            exact fun stage usage listed effective => ⟨listed, effective⟩
          obtain ⟨stage, access, resolved, isEmpty, faultEq⟩ :=
            coherent.emptyAccess_of_mergeAll refused
          obtain ⟨usage, listed, holds, accessEq⟩ := AccessTable.mem_resolve_iff.mp resolved
          have takesPlace : usage.Holds (Used (Effective fun stage usage =>
              ⟨stage, usage⟩ ∈ declarations)) :=
            holds.mono fun attr contained => justified.used coherent contained
          exact Or.inr ⟨declarations, rfl, stage, access,
            ⟨isEmpty, usage, listed, takesPlace, accessEq⟩, faultEq⟩
      | settled _ _ => cases failed

/-- The limit that the declarations give is never reached, and a collection that
succeeds takes at most two passes more than there are attributes. -/
theorem retable_converges (dataset : Dataset) (stages : StageId → Option Stage)
    (arena : ExpressionArena) (unlimited : options.maxPasses = none) :
    (∀ other limit,
        (dataset.retable stages arena options).answer ≠ .error (.notConverged other limit))
      ∧ ∀ effort, (dataset.retable stages arena options).answer = .ok effort →
        effort.passes ≤
          (dataset.retable stages arena options).state.table.attributes.length + 2 := by
  constructor
  · intro other limit failed
    have collectFailed : (dataset.collect stages arena none).answer =
        .error (.notConverged other limit) := unlimited ▸ failed
    rcases fault_of_collect_error collectFailed with
      ⟨owner, _, _, impossible⟩ | ⟨_, _, stage, access, _, impossible⟩
    · cases impossible
    · cases impossible
  · intro effort retabled
    exact passes_le_of_collect_ok retabled

theorem retable_converges_unknown_flag :
    let stage : Stage :=
      { kind := .update
        usages := [.whenUsed (.read .velocity) .velocity,
          .whenUsed ⟨.velocity, ⟨128⟩⟩ .position, .always (.write .position)] }
    let dataset : Dataset := { id := ⟨0⟩, kind := .particle, owners := [⟨0⟩] }
    let retabled := dataset.retable (fun _ => some stage) {} {}
    retabled.answer = .ok ⟨4, 3⟩
      ∧ retabled.state.table.attributes = [.position, .velocity]
      ∧ (∀ other limit, retabled.answer ≠ .error (.notConverged other limit))
      ∧ 4 ≤ retabled.state.table.attributes.length + 2 := by
  intro stage dataset retabled
  have answerEq : retabled.answer = .ok ⟨4, 3⟩ := by decide
  have unlimited : ({} : AnalysisOptions).maxPasses = none := rfl
  have converges := retable_converges dataset (fun _ => some stage) {} unlimited
  exact ⟨answerEq, by decide, converges.1, converges.2 ⟨4, 3⟩ answerEq⟩

end Dataset

end AttributeFlow
