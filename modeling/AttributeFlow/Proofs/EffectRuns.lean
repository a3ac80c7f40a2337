import AttributeFlow.Proofs.EffectConsistency

/-!
# Runs of an effect

Whatever is done to an effect, in whatever order and with whatever success, it
stays consistent, as long as there are names for the stages that are added.
-/

namespace AttributeFlow

namespace Effect

/-- Something that is done to an effect.  A stage and the expressions may be edited
in any way, and an edit may answer anything. -/
inductive Action : Type 1
  | createDataset (feed : Feed)
  | insertStage (stage : Stage)
  | eraseStage (id : StageId)
  | assign (id : StageId) (dataset? : Option DatasetId)
  | modifyStage {Answer : Type} (id : StageId) (edit : Stage → Stage × Answer)
  | appendOperation (id : StageId) (operation : Operation)
  | changeSpace (id : StageId) (space : Space)
  | modifyArena {Answer : Type} (edit : ExpressionArena → ExpressionArena × Answer)
  | analyze (id : DatasetId)
  | analyzeAnew (id : DatasetId)
  | analyzeStale

/-- Whether the action adds a stage. -/
def Action.insertsStage : Action → Bool
  | .insertStage _ => true
  | _ => false

/-- Whether the action edits the expressions. -/
def Action.editsArena : Action → Bool
  | .modifyArena _ => true
  | _ => false

/-- The effect after an action, whether or not the action was refused. -/
def perform (effect : Effect) : Action → Effect
  | .createDataset feed =>
      match effect.createDataset feed with
      | .ok (next, _) => next
      | .error _ => effect
  | .insertStage stage => (effect.insertStage stage).1
  | .eraseStage id => (effect.eraseStage id).1
  | .assign id dataset? => (effect.assign id dataset?).state
  | .modifyStage id edit =>
      match effect.modifyStage id edit with
      | .ok (next, _) => next
      | .error _ => effect
  | .appendOperation id operation => (effect.appendOperation id operation).state
  | .changeSpace id space =>
      match effect.changeSpace id space with
      | .ok next => next
      | .error _ => effect
  | .modifyArena edit => (effect.modifyArena edit).1
  | .analyze id => (effect.analyze id).state
  | .analyzeAnew id => (effect.analyzeAnew id).state
  | .analyzeStale => effect.analyzeStale.state

/-- The effect after some actions. -/
def run (effect : Effect) (actions : List Action) : Effect :=
  actions.foldl perform effect

theorem run_append (effect : Effect) (first last : List Action) :
    effect.run (first ++ last) = (effect.run first).run last :=
  List.foldl_append

variable {effect next : Effect} {id : StageId} {place : Nat} {dataset : Dataset}

/-- Where one dataset is replaced by what its analysis leads to, the others stay. -/
theorem setDataset_analyze_spec {name : DatasetId} (found : effect.dataset? name = some dataset)
    (place : Nat) (other : Dataset)
    (otherFound : (effect.setDataset name
      (dataset.analyze effect.stage? effect.arena effect.options).state).datasets[place]? =
        some other) :
    ∃ old, effect.datasets[place]? = some old
      ∧ (other = old
        ∨ other = (old.analyze effect.stage? effect.arena effect.options).state) := by
  rcases getElem?_setDataset_eq_some otherFound with ⟨here, rfl⟩ | ⟨_, before⟩
  · subst here
    exact ⟨dataset, found, Or.inr rfl⟩
  · exact ⟨other, before, Or.inl rfl⟩

namespace Consistent

theorem appendOperation (consistent : effect.Consistent) (id : StageId) (operation : Operation) :
    (effect.appendOperation id operation).state.Consistent := by
  rw [Effect.appendOperation]
  split
  · exact consistent
  · next edited => exact consistent.modifyStage edited

theorem changeSpace (consistent : effect.Consistent) {space : Space}
    (changed : effect.changeSpace id space = .ok next) : next.Consistent :=
  consistent.modifyStage (modifyStage_of_changeSpace changed)

theorem assign (consistent : effect.Consistent) (id : StageId) (new? : Option DatasetId) :
    (effect.assign id new?).state.Consistent := by
  unfold Effect.assign
  cases found : effect.entry? id with
  | none => exact consistent
  | some entry =>
      cases new? with
      | none => exact consistent.withdraw id
      | some new =>
          dsimp only
          cases effect.dataset new with
          | error fault => exact consistent
          | ok dataset =>
              obtain ⟨_, stillFound⟩ := exists_entry_withdraw found
              have unassigned := effect.datasetOf?_withdraw id
              exact (consistent.withdraw id).enroll stillFound unassigned new

theorem modifyArena {Answer : Type} (consistent : effect.Consistent)
    (edit : ExpressionArena → ExpressionArena × Answer) :
    (effect.modifyArena edit).1.Consistent where
  namesTaken := consistent.namesTaken
  upholds := by
    intro place dataset found
    rw [Effect.modifyArena] at found
    dsimp only at found
    rw [List.getElem?_map, Option.map_eq_some_iff] at found
    obtain ⟨old, before, rfl⟩ := found
    have upheld := consistent.upholds place old before
    exact upholds_of_stale upheld.ownersDistinct upheld.ownersAssigned rfl

theorem createDataset (consistent : effect.Consistent) {feed : Feed} {name : DatasetId}
    (created : effect.createDataset feed = .ok (next, name)) : next.Consistent := by
  obtain ⟨kind, rfl⟩ := exists_kind_of_createDataset created
  refine ⟨consistent.namesTaken, ?_⟩
  intro place dataset found
  rw [List.getElem?_append] at found
  split at found
  · have upheld := consistent.upholds place dataset found
    exact ⟨upheld.ownersDistinct, upheld.ownersAssigned, upheld.analysisStands⟩
  · rw [List.getElem?_singleton] at found
    split at found
    · cases found
      exact upholds_of_stale List.nodup_nil (by simp) rfl
    · cases found

/-- Analyzing some of the datasets keeps the effect consistent. -/
theorem of_analyses (consistent : effect.Consistent) {datasets : List Dataset}
    (analyses : ∀ (place : Nat) (dataset : Dataset), datasets[place]? = some dataset →
      ∃ old, effect.datasets[place]? = some old
        ∧ (dataset = old
          ∨ dataset = (old.analyze effect.stage? effect.arena effect.options).state)) :
    { effect with datasets }.Consistent where
  namesTaken := consistent.namesTaken
  upholds := by
    intro place dataset found
    obtain ⟨old, before, sameOrAnalyzed⟩ := analyses place dataset found
    have upheld := consistent.upholds place old before
    rcases sameOrAnalyzed with rfl | rfl
    · exact ⟨upheld.ownersDistinct, upheld.ownersAssigned, upheld.analysisStands⟩
    · obtain ⟨same, stands⟩ := old.analyze_outcome effect.stage? effect.arena effect.options
      refine ⟨?_, ?_, stands⟩
      · rw [same.owners_eq]
        exact upheld.ownersDistinct
      · rw [same.owners_eq]
        exact upheld.ownersAssigned

theorem analyzeAnew (consistent : effect.Consistent) (name : DatasetId) :
    (effect.analyzeAnew name).state.Consistent := by
  rw [Effect.analyzeAnew]
  cases found : effect.dataset name with
  | error fault => exact consistent
  | ok dataset =>
      exact consistent.of_analyses (setDataset_analyze_spec (dataset_eq_ok_iff.mp found))

theorem analyze (consistent : effect.Consistent) (name : DatasetId) :
    (effect.analyze name).state.Consistent := by
  rw [Effect.analyze]
  cases effect.dataset name with
  | error fault => exact consistent
  | ok dataset =>
      dsimp only
      split
      · exact consistent
      · exact consistent.analyzeAnew name

end Consistent

theorem analyzeEach_spec (stages : StageId → Option Stage) (arena : ExpressionArena)
    (options : AnalysisOptions) (datasets : List Dataset) (place : Nat) (dataset : Dataset)
    (found : (analyzeEach stages arena options datasets).state[place]? = some dataset) :
    ∃ old, datasets[place]? = some old
      ∧ (dataset = old ∨ dataset = (old.analyze stages arena options).state) := by
  induction datasets generalizing place with
  | nil => cases found
  | cons first rest ih =>
      rw [analyzeEach] at found
      by_cases analyzed : first.analyzed = true
      · rw [if_pos analyzed] at found
        cases place with
        | zero =>
            cases found
            exact ⟨dataset, rfl, Or.inl rfl⟩
        | succ place => exact ih place found
      · rw [if_neg analyzed] at found
        dsimp only at found
        cases answerEq : (first.analyze stages arena options).answer with
        | error fault =>
            rw [answerEq] at found
            cases place with
            | zero =>
                cases found
                exact ⟨first, rfl, Or.inr rfl⟩
            | succ place => exact ⟨dataset, found, Or.inl rfl⟩
        | ok effort =>
            rw [answerEq] at found
            cases place with
            | zero =>
                cases found
                exact ⟨first, rfl, Or.inr rfl⟩
            | succ place => exact ih place found

theorem Consistent.analyzeStale (consistent : effect.Consistent) :
    effect.analyzeStale.state.Consistent :=
  consistent.of_analyses (analyzeEach_spec effect.stage? effect.arena effect.options effect.datasets)

/-- An action leads from a consistent effect to a consistent effect. -/
theorem Consistent.perform (consistent : effect.Consistent) (action : Action)
    (remains : action.insertsStage = true → effect.nextStage.toNat + 1 < 2 ^ 32) :
    (effect.perform action).Consistent := by
  cases action with
  | createDataset feed =>
      rw [Effect.perform]
      split
      · next created => exact consistent.createDataset created
      · exact consistent
  | insertStage stage => exact consistent.insertStage stage (remains rfl)
  | eraseStage id => exact consistent.eraseStage id
  | assign id dataset? => exact consistent.assign id dataset?
  | modifyStage id edit =>
      rw [Effect.perform]
      split
      · next edited => exact consistent.modifyStage edited
      · exact consistent
  | appendOperation id operation => exact consistent.appendOperation id operation
  | changeSpace id space =>
      rw [Effect.perform]
      split
      · next changed => exact consistent.changeSpace changed
      · exact consistent
  | modifyArena edit => exact consistent.modifyArena edit
  | analyze id => exact consistent.analyze id
  | analyzeAnew id => exact consistent.analyzeAnew id
  | analyzeStale => exact consistent.analyzeStale

/-- The two effects have the same options, expressions and counter. -/
structure SameSettings (effect next : Effect) : Prop where
  options_eq : next.options = effect.options
  arena_eq : next.arena = effect.arena
  nextStage_eq : next.nextStage = effect.nextStage

namespace SameSettings

theorem refl (effect : Effect) : effect.SameSettings effect :=
  ⟨rfl, rfl, rfl⟩

theorem trans {middle : Effect} (first : effect.SameSettings middle)
    (second : middle.SameSettings next) : effect.SameSettings next :=
  ⟨second.options_eq.trans first.options_eq, second.arena_eq.trans first.arena_eq,
    second.nextStage_eq.trans first.nextStage_eq⟩

theorem withdraw (effect : Effect) (id : StageId) : effect.SameSettings (effect.withdraw id) := by
  rw [Effect.withdraw]
  split
  · exact refl effect
  · exact ⟨rfl, rfl, rfl⟩

theorem assign (effect : Effect) (id : StageId) (new? : Option DatasetId) :
    effect.SameSettings (effect.assign id new?).state := by
  have enrolled (withdrawn : Effect) (new : DatasetId) :
      withdrawn.SameSettings (withdrawn.enroll id new).state := by
    rw [enroll]
    split
    · exact refl withdrawn
    · exact ⟨rfl, rfl, rfl⟩
  unfold Effect.assign
  split
  · exact refl effect
  · exact withdraw effect id
  · split
    · exact refl effect
    · exact (withdraw effect id).trans (enrolled _ _)

theorem modifyStage {Answer : Type} {edit : Stage → Stage × Answer} {answer : Answer}
    (edited : effect.modifyStage id edit = .ok (next, answer)) : effect.SameSettings next := by
  obtain ⟨_, _, _, ⟨_, rfl⟩ | ⟨_, _, rfl⟩⟩ := cases_of_modifyStage_ok edited
  · exact ⟨rfl, rfl, rfl⟩
  · exact ⟨rfl, rfl, rfl⟩

theorem createDataset {feed : Feed} {name : DatasetId}
    (created : effect.createDataset feed = .ok (next, name)) : effect.SameSettings next := by
  obtain ⟨kind, rfl⟩ := exists_kind_of_createDataset created
  exact ⟨rfl, rfl, rfl⟩

theorem appendOperation (effect : Effect) (id : StageId) (operation : Operation) :
    effect.SameSettings (effect.appendOperation id operation).state := by
  rw [Effect.appendOperation]
  split
  · exact refl effect
  · next edited => exact modifyStage edited

theorem analyzeAnew (effect : Effect) (name : DatasetId) :
    effect.SameSettings (effect.analyzeAnew name).state := by
  rw [Effect.analyzeAnew]
  split
  · exact refl effect
  · exact ⟨rfl, rfl, rfl⟩

theorem analyze (effect : Effect) (name : DatasetId) :
    effect.SameSettings (effect.analyze name).state := by
  rw [Effect.analyze]
  split
  · exact refl effect
  · split
    · exact refl effect
    · exact analyzeAnew effect name

end SameSettings

/-- An action that neither adds a stage nor edits the expressions keeps the settings. -/
theorem sameSettings_perform (effect : Effect) {action : Action}
    (noStage : action.insertsStage = false) (noEdit : action.editsArena = false) :
    effect.SameSettings (effect.perform action) := by
  cases action with
  | createDataset feed =>
      rw [perform]
      split
      · next created => exact .createDataset created
      · exact .refl effect
  | insertStage stage => cases noStage
  | eraseStage id =>
      have withdrawn := SameSettings.withdraw effect id
      exact ⟨withdrawn.options_eq, withdrawn.arena_eq, withdrawn.nextStage_eq⟩
  | assign id dataset? => exact .assign effect id dataset?
  | modifyStage id edit =>
      rw [perform]
      split
      · next edited => exact .modifyStage edited
      · exact .refl effect
  | appendOperation id operation => exact .appendOperation effect id operation
  | changeSpace id space =>
      rw [perform]
      split
      · next changed => exact .modifyStage (modifyStage_of_changeSpace changed)
      · exact .refl effect
  | modifyArena edit => cases noEdit
  | analyze id => exact .analyze effect id
  | analyzeAnew id => exact .analyzeAnew effect id
  | analyzeStale => exact ⟨rfl, rfl, rfl⟩

theorem options_perform (effect : Effect) (action : Action) :
    (effect.perform action).options = effect.options := by
  cases action with
  | insertStage stage => rfl
  | modifyArena edit => rfl
  | _ => exact (effect.sameSettings_perform rfl rfl).options_eq

/-- Only a new stage raises the counter. -/
theorem nextStage_perform (effect : Effect) {action : Action}
    (noStage : action.insertsStage = false) :
    (effect.perform action).nextStage = effect.nextStage := by
  cases action with
  | insertStage stage => cases noStage
  | modifyArena edit => rfl
  | _ => exact (effect.sameSettings_perform rfl rfl).nextStage_eq

theorem nextStage_perform_le (effect : Effect) (action : Action) :
    (effect.perform action).nextStage.toNat ≤
      effect.nextStage.toNat + if action.insertsStage then 1 else 0 := by
  cases inserts : action.insertsStage with
  | false =>
      rw [effect.nextStage_perform inserts]
      exact Nat.le_refl _
  | true =>
      cases action with
      | insertStage stage =>
          have sumEq := UInt32.toNat_add effect.nextStage 1
          have atMost := Nat.mod_le (effect.nextStage.toNat + 1) (2 ^ 32)
          rw [UInt32.toNat_one] at sumEq
          exact Nat.le_trans (Nat.le_of_eq sumEq) atMost
      | _ => cases inserts

theorem options_run (effect : Effect) (actions : List Action) :
    (effect.run actions).options = effect.options := by
  induction actions generalizing effect with
  | nil => rfl
  | cons action actions ih => exact (ih (effect.perform action)).trans (options_perform effect action)

/-- A run that adds fewer stages than there are names keeps the effect consistent. -/
theorem Consistent.run (consistent : effect.Consistent) {actions : List Action}
    (enoughNames : effect.nextStage.toNat + actions.countP Action.insertsStage < 2 ^ 32) :
    (effect.run actions).Consistent := by
  induction actions generalizing effect with
  | nil => exact consistent
  | cons action actions ih =>
      rw [List.countP_cons] at enoughNames
      have counted := effect.nextStage_perform_le action
      apply ih
      · apply consistent.perform
        intro inserts
        rw [if_pos inserts] at enoughNames
        omega
      · omega

end Effect

end AttributeFlow
