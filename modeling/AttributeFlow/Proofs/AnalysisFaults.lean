import AttributeFlow.Proofs.ArenaGrowth
import AttributeFlow.Proofs.ClassificationFaults
import AttributeFlow.Proofs.EffectLinks
import AttributeFlow.Proofs.PassBound

/-!
# When an analysis fails

Owners exist, expressions have no cycles, and without a limit that is set every
collection converges.  What remains are two causes.  An analysis fails at an access
without a mode that takes place, given what the accesses with a mode use; and if
there is none, it fails exactly if there are more owners than a key can tell apart.
-/

namespace AttributeFlow

namespace Dataset

variable {dataset : Dataset} {stages : StageId → Option Stage} {arena : ExpressionArena}
  {options : AnalysisOptions} {fault : Fault} {effort : Effort}

theorem emptyAccess_of_collect_error (acyclic : arena.Acyclic)
    (ownersExist : ∀ owner ∈ dataset.owners, ∃ stage, stages owner = some stage)
    (failed : (dataset.collect stages arena none).answer = .error fault) :
    ∃ stage access, MakesEmptyAccess (dataset.Declares stages arena) stage access
      ∧ fault = .emptyAccess access.attr stage := by
  rcases fault_of_collect_error failed with
    ⟨owner, isOwner, missing, _⟩ | ⟨declarations, declared, stage, access, makes, faultEq⟩
  · obtain ⟨stage, known⟩ := ownersExist owner isOwner
    rw [missing] at known
    cases known
  · exact ⟨stage, access,
      makes.mono fun _ _ listed => (mem_declarations_iff acyclic declared).mp listed, faultEq⟩

theorem not_makesEmptyAccess_of_collect_ok {maxPasses : Option UInt64} (acyclic : arena.Acyclic)
    (collected : (dataset.collect stages arena maxPasses).answer = .ok effort) :
    ¬ ∃ stage access, MakesEmptyAccess (dataset.Declares stages arena) stage access := by
  rintro ⟨stage, access, makes⟩
  obtain ⟨_, _, covers⟩ := justified_and_covers_of_collect_ok acyclic collected
  exact (covers stage access makes.contributes).1 makes.1

/-- The rows of a collected table belong to owners, so nothing but their number can
stand in the way of a plan. -/
theorem exists_plan_of_retable_ok
    (ownersExist : ∀ owner ∈ dataset.owners, ∃ stage, stages owner = some stage)
    (fits : dataset.owners.length ≤ OwnerKey.capacity)
    (retabled : (dataset.retable stages arena options).answer = .ok effort) :
    ∃ plan, ((dataset.retable stages arena options).state.classification stages).plan =
      .ok plan := by
  have reached : (dataset.collect stages arena options.maxPasses).state.Reached :=
    reached_of_collect_ok retabled
  apply (Classification.exists_plan_iff reached.coherent).mpr
  refine ⟨fits, ?_⟩
  intro row member _
  have isOwner := mem_owners_of_collect_ok retabled row member
  obtain ⟨stage, known⟩ := ownersExist row.stage isOwner
  exact ⟨stage.kind, congrArg (Option.map Stage.kind) known, fun _ => isOwner⟩

section Outcome

variable (acyclic : arena.Acyclic) (unlimited : options.maxPasses = none)
  (ownersExist : ∀ owner ∈ dataset.owners, ∃ stage, stages owner = some stage)

include acyclic unlimited ownersExist

/-- The three ways in which an analysis without a limit may end. -/
theorem analyze_ends :
    (∃ stage access, MakesEmptyAccess (dataset.Declares stages arena) stage access
        ∧ (dataset.analyze stages arena options).answer = .error (.emptyAccess access.attr stage))
      ∨ (¬ ∃ stage access, MakesEmptyAccess (dataset.Declares stages arena) stage access)
        ∧ ((OwnerKey.capacity < dataset.owners.length
            ∧ (dataset.analyze stages arena options).answer =
              .error (.tooManyOwners dataset.owners.length))
          ∨ (dataset.owners.length ≤ OwnerKey.capacity
            ∧ ∃ effort, (dataset.analyze stages arena options).answer = .ok effort)) := by
  cases retabled : (dataset.markStale.retable stages arena options).answer with
  | error fault =>
      have failed : (dataset.markStale.collect stages arena none).answer = .error fault :=
        unlimited ▸ retabled
      obtain ⟨stage, access, makes, rfl⟩ := emptyAccess_of_collect_error acyclic ownersExist failed
      exact Or.inl ⟨stage, access, makes, (analyze_of_retable_error retabled).2⟩
  | ok effort =>
      refine Or.inr ⟨not_makesEmptyAccess_of_collect_ok acyclic retabled, ?_⟩
      by_cases fits : dataset.owners.length ≤ OwnerKey.capacity
      · obtain ⟨plan, planned⟩ := exists_plan_of_retable_ok ownersExist fits retabled
        exact Or.inr ⟨fits, effort, (analyze_of_plan_ok retabled planned).2⟩
      · have tooMany := Nat.lt_of_not_le fits
        exact Or.inl ⟨tooMany,
          (analyze_of_plan_error retabled (Classification.plan_of_tooMany tooMany)).2⟩

theorem exists_analyze_ok_iff :
    (∃ effort, (dataset.analyze stages arena options).answer = .ok effort) ↔
      (¬ ∃ stage access, MakesEmptyAccess (dataset.Declares stages arena) stage access)
        ∧ dataset.owners.length ≤ OwnerKey.capacity := by
  rcases analyze_ends acyclic unlimited ownersExist with
    ⟨stage, access, makes, ended⟩ | ⟨noneMakes, ⟨tooMany, ended⟩ | ⟨fits, effort, ended⟩⟩
  · constructor
    · rintro ⟨effort, succeeded⟩
      cases succeeded.symm.trans ended
    · rintro ⟨noneMakes, _⟩
      exact absurd ⟨stage, access, makes⟩ noneMakes
  · constructor
    · rintro ⟨effort, succeeded⟩
      cases succeeded.symm.trans ended
    · rintro ⟨_, fits⟩
      exact absurd fits (Nat.not_le_of_lt tooMany)
  · exact ⟨fun _ => ⟨noneMakes, fits⟩, fun _ => ⟨effort, ended⟩⟩

theorem cause_of_analyze_error
    (failed : (dataset.analyze stages arena options).answer = .error fault) :
    (∃ stage access, MakesEmptyAccess (dataset.Declares stages arena) stage access
        ∧ fault = .emptyAccess access.attr stage)
      ∨ (¬ ∃ stage access, MakesEmptyAccess (dataset.Declares stages arena) stage access)
        ∧ fault = .tooManyOwners dataset.owners.length := by
  rcases analyze_ends acyclic unlimited ownersExist with
    ⟨stage, access, makes, ended⟩ | ⟨noneMakes, ⟨_, ended⟩ | ⟨_, effort, ended⟩⟩
  · cases failed.symm.trans ended
    exact Or.inl ⟨stage, access, makes, rfl⟩
  · cases failed.symm.trans ended
    exact Or.inr ⟨noneMakes, rfl⟩
  · cases failed.symm.trans ended

end Outcome

end Dataset

namespace Effect

/-- Expressions are edited by additions only. -/
def Action.OnlyAdds : Action → Prop
  | .modifyArena edit => ∀ arena, ∃ additions, (edit arena).1 = arena.growAll additions
  | _ => True

theorem inputsEarlier_perform {effect : Effect} (earlier : effect.arena.InputsEarlier)
    {action : Action} (onlyAdds : action.OnlyAdds) :
    (effect.perform action).arena.InputsEarlier := by
  cases action with
  | insertStage stage => exact earlier
  | modifyArena edit =>
      obtain ⟨additions, arenaEq⟩ := onlyAdds effect.arena
      have grown : (effect.perform (.modifyArena edit)).arena = effect.arena.growAll additions :=
        arenaEq
      rw [grown]
      exact earlier.growAll additions
  | _ =>
      rw [(effect.sameSettings_perform rfl rfl).arena_eq]
      exact earlier

theorem inputsEarlier_run {effect : Effect} (earlier : effect.arena.InputsEarlier)
    {actions : List Action} (onlyAdd : ∀ action ∈ actions, action.OnlyAdds) :
    (effect.run actions).arena.InputsEarlier := by
  induction actions generalizing effect with
  | nil => exact earlier
  | cons action actions ih =>
      rw [List.forall_mem_cons] at onlyAdd
      exact ih (inputsEarlier_perform earlier onlyAdd.1) onlyAdd.2

theorem answer_analyzeAnew {effect : Effect} {name : DatasetId} {dataset : Dataset}
    (found : effect.dataset? name = some dataset) :
    (effect.analyzeAnew name).answer =
      (dataset.analyze effect.stage? effect.arena effect.options).answer := by
  rw [analyzeAnew, dataset_eq_ok_iff.mpr found]
  rfl

/-- After any run in which expressions are only added, and without a limit that is set,
analyzing a dataset that exists is an invalid usage exactly if some access without a
mode takes place, given what the accesses with a mode use.  Otherwise it is an invalid
configuration exactly if there are more than sixteen owners, and else it succeeds.
Conditional usages without a mode do no harm as long as their triggers are not used. -/
theorem analyzeAnew_fails_iff (options : AnalysisOptions) (unlimited : options.maxPasses = none)
    (actions : List Action) (onlyAdd : ∀ action ∈ actions, action.OnlyAdds) {name : DatasetId}
    {dataset : Dataset} (found : ((empty options).run actions).dataset? name = some dataset) :
    let effect := (empty options).run actions
    let answer := (effect.analyzeAnew name).answer
    let declares := dataset.Declares effect.stage? effect.arena
    ((∃ fault, answer = .error fault ∧ fault.category = .invalidUsage) ↔
        ∃ stage access, MakesEmptyAccess declares stage access)
      ∧ ((¬ ∃ stage access, MakesEmptyAccess declares stage access) →
        ((∃ fault, answer = .error fault ∧ fault.category = .invalidConfiguration) ↔
            16 < dataset.owners.length)
          ∧ ((∃ effort, answer = .ok effort) ↔ dataset.owners.length ≤ 16))
      ∧ (∀ fault, answer = .error fault →
        (∃ stage access, MakesEmptyAccess declares stage access
            ∧ fault = .emptyAccess access.attr stage)
          ∨ fault = .tooManyOwners dataset.owners.length)
      ∧ (∀ fault, answer = .error fault →
        fault.category ≠ .notFound ∧ ∀ other limit, fault ≠ .notConverged other limit)
      ∧ ((∀ stage usage, declares stage usage → usage.access.mode = ∅ →
          ∃ access trigger, usage = .whenUsed access trigger
            ∧ ¬ Used (Effective declares) trigger) →
        dataset.owners.length ≤ 16 → ∃ effort, answer = .ok effort) := by
  intro effect answer declares
  have acyclic : effect.arena.Acyclic := (inputsEarlier_run .empty onlyAdd).acyclic
  have ownersExist : ∀ owner ∈ dataset.owners, ∃ stage, effect.stage? owner = some stage :=
    fun _ isOwner => ((linked_empty options).run actions).exists_stage found isOwner
  have stillUnlimited : effect.options.maxPasses = none := by
    rw [options_run]
    exact unlimited
  have answerEq := answer_analyzeAnew found
  have causes (fault : Fault) (failed : answer = .error fault) :=
    dataset.cause_of_analyze_error acyclic stillUnlimited ownersExist
      (answerEq.symm.trans failed)
  have succeeds_iff := dataset.exists_analyze_ok_iff acyclic stillUnlimited ownersExist
  rw [← answerEq] at succeeds_iff
  refine ⟨?_, ?_, ?_, ?_, ?_⟩
  · constructor
    · rintro ⟨fault, failed, category⟩
      rcases causes fault failed with ⟨stage, access, makes, _⟩ | ⟨_, rfl⟩
      · exact ⟨stage, access, makes⟩
      · cases category
    · intro someMakes
      cases ended : answer with
      | ok effort => exact absurd someMakes (succeeds_iff.mp ⟨effort, ended⟩).1
      | error fault =>
          rcases causes fault ended with ⟨_, _, _, rfl⟩ | ⟨noneMakes, _⟩
          · exact ⟨_, rfl, rfl⟩
          · exact absurd someMakes noneMakes
  · intro noneMakes
    refine ⟨?_, ?_⟩
    · constructor
      · rintro ⟨fault, failed, _⟩
        by_contra fits
        obtain ⟨effort, succeeded⟩ := succeeds_iff.mpr ⟨noneMakes, Nat.le_of_not_lt fits⟩
        cases succeeded.symm.trans failed
      · intro tooMany
        cases ended : answer with
        | ok effort => exact absurd tooMany (Nat.not_lt_of_le (succeeds_iff.mp ⟨effort, ended⟩).2)
        | error fault =>
            rcases causes fault ended with ⟨stage, access, makes, _⟩ | ⟨_, rfl⟩
            · exact absurd ⟨stage, access, makes⟩ noneMakes
            · exact ⟨_, rfl, rfl⟩
    · rw [succeeds_iff]
      exact and_iff_right noneMakes
  · intro fault failed
    exact (causes fault failed).imp_right And.right
  · intro fault failed
    rcases causes fault failed with ⟨_, _, _, rfl⟩ | ⟨_, rfl⟩
    · simp [Fault.category]
    · simp [Fault.category]
  · intro harmless fits
    refine succeeds_iff.mpr ⟨?_, fits⟩
    rintro ⟨stage, access, isEmpty, usage, declared, holds, rfl⟩
    obtain ⟨access, trigger, rfl, notUsed⟩ := harmless stage usage declared isEmpty
    exact notUsed holds

/-- The color that would trigger the usage without a mode is not used in the first
dataset; in the second, a chain of triggers reaches one. -/
theorem analyzeAnew_fails_iff_chain :
    let first : Stage :=
      { kind := .update
        usages := [.always (.write .position), .whenUsed ⟨.velocity, ∅⟩ .color]
        expressions := { gpu := [⟨1⟩] } }
    let second : Stage :=
      { kind := .update
        usages := [.whenUsed ⟨.velocity, ∅⟩ .age, .whenUsed (.write .age) .position,
          .always (.write .position)] }
    let additions : List ExpressionArena.Addition :=
      [.current .size, .computed "double" [⟨0⟩], .computed "missing" [⟨7⟩]]
    let actions : List Action :=
      [.createDataset ⟨some .particle⟩, .createDataset ⟨some .particle⟩,
        .modifyArena fun arena => (arena.growAll additions, ()), .insertStage first,
        .insertStage second, .assign ⟨0⟩ (some ⟨0⟩), .assign ⟨1⟩ (some ⟨1⟩)]
    let effect := (empty {}).run actions
    let harmless : Dataset := { id := ⟨0⟩, kind := .particle, owners := [⟨0⟩] }
    let harmed : Dataset := { id := ⟨1⟩, kind := .particle, owners := [⟨1⟩] }
    (∀ action ∈ actions, action.OnlyAdds)
      ∧ effect.dataset? ⟨0⟩ = some harmless
      ∧ effect.dataset? ⟨1⟩ = some harmed
      ∧ (effect.analyzeAnew ⟨0⟩).answer = .ok ⟨2, 2⟩
      ∧ (effect.analyzeAnew ⟨1⟩).answer = .error (.emptyAccess .velocity ⟨1⟩)
      ∧ (¬ ∃ stage access,
        MakesEmptyAccess (harmless.Declares effect.stage? effect.arena) stage access)
      ∧ ∃ stage access,
        MakesEmptyAccess (harmed.Declares effect.stage? effect.arena) stage access := by
  intro first second additions actions effect harmless harmed
  have unlimited : ({} : AnalysisOptions).maxPasses = none := rfl
  have onlyAdd : ∀ action ∈ actions, action.OnlyAdds := by
    simp [actions, Action.OnlyAdds]
  have harmlessFound : effect.dataset? ⟨0⟩ = some harmless := by decide
  have harmedFound : effect.dataset? ⟨1⟩ = some harmed := by decide
  have succeeds : (effect.analyzeAnew ⟨0⟩).answer = .ok ⟨2, 2⟩ := by decide
  have fails : (effect.analyzeAnew ⟨1⟩).answer = .error (.emptyAccess .velocity ⟨1⟩) := by decide
  have harmlessCase := analyzeAnew_fails_iff {} unlimited actions onlyAdd harmlessFound
  have harmedCase := analyzeAnew_fails_iff {} unlimited actions onlyAdd harmedFound
  refine ⟨onlyAdd, harmlessFound, harmedFound, succeeds, fails, ?_, ?_⟩
  · intro someMakes
    obtain ⟨fault, failed, _⟩ := harmlessCase.1.mpr someMakes
    cases succeeds.symm.trans failed
  · exact harmedCase.1.mp ⟨_, fails, rfl⟩

end Effect

end AttributeFlow
