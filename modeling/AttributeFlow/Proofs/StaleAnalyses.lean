import AttributeFlow.Proofs.AnalysisFaults
import AttributeFlow.Proofs.CurrentAnalyses
import AttributeFlow.Proofs.RefusedActions

/-!
# Analyzing what is stale

Analyzing every stale dataset of an effect is the same as analyzing the datasets one by
one.  What an analysis does to a dataset depends on the stages, the expressions and the
options, which no analysis changes, and a dataset that was analyzed with success is not
analyzed again.  So the order of the analyses does not matter, and neither does naming a
dataset more than once.  Where an analysis fails, the datasets before it have been
analyzed and those after it have not been touched.
-/

namespace AttributeFlow

/-- Where a change is repeated, an item changes once for each time its place is named. -/
theorem getElem?_foldl_modify {Item : Type} (change : Item → Item) (places : List Nat)
    (items : List Item) (place : Nat) :
    (places.foldl (fun items other => items.modify other change) items)[place]? =
      (items[place]?).map change^[places.count place] := by
  induction places generalizing items with
  | nil => exact Option.map_id_apply.symm
  | cons other places ih =>
      rw [List.foldl_cons, ih, List.getElem?_modify, List.count_cons]
      cases items[place]? with
      | none => rfl
      | some item =>
          by_cases here : other = place
          · simp [here]
          · simp [here]

namespace Dataset

variable {dataset : Dataset} {stages : StageId → Option Stage} {arena : ExpressionArena}
  {options : AnalysisOptions}

/-- Analyze a dataset unless its last analysis stands. -/
def refresh (dataset : Dataset) (stages : StageId → Option Stage) (arena : ExpressionArena)
    (options : AnalysisOptions) : Reply Dataset (Except Fault Unit) :=
  if dataset.analyzed then { state := dataset, answer := .ok () }
  else (dataset.analyze stages arena options).mapAnswer fun answer => answer.map fun _ => ()

theorem refresh_of_analyzed (analyzed : dataset.analyzed = true) :
    dataset.refresh stages arena options = { state := dataset, answer := .ok () } :=
  if_pos analyzed

theorem refresh_of_stale (stale : dataset.analyzed = false) :
    dataset.refresh stages arena options =
      (dataset.analyze stages arena options).mapAnswer fun answer => answer.map fun _ => () := by
  rw [refresh, stale]
  rfl

/-- A dataset counts as analyzed exactly if refreshing it has succeeded. -/
theorem analyzed_refresh_iff :
    (dataset.refresh stages arena options).state.analyzed = true ↔
      (dataset.refresh stages arena options).answer = .ok () := by
  cases mark : dataset.analyzed with
  | true =>
      rw [refresh_of_analyzed mark]
      simp [mark]
  | false =>
      rw [refresh_of_stale mark]
      dsimp only [Reply.mapAnswer]
      cases answered : (dataset.analyze stages arena options).answer with
      | error fault =>
          rw [analyze_of_error answered]
          simp [Except.map]
      | ok effort =>
          obtain ⟨_, plan, _, stateEq⟩ := planned_of_analyze_ok answered
          rw [stateEq]
          simp [Except.map]

/-- What was refreshed with success is left as it is the next time. -/
theorem state_refresh_refresh (succeeds : (dataset.refresh stages arena options).answer = .ok ()) :
    ((dataset.refresh stages arena options).state.refresh stages arena options).state =
      (dataset.refresh stages arena options).state := by
  rw [refresh_of_analyzed (analyzed_refresh_iff.mpr succeeds)]

/-- Nothing is refreshed with success unless some pass is allowed. -/
theorem somePass_of_refresh_ok
    (needsPass : dataset.analyzed = true → options.maxPasses ≠ some 0)
    (succeeds : (dataset.refresh stages arena options).answer = .ok ()) :
    options.maxPasses ≠ some 0 := by
  cases mark : dataset.analyzed with
  | true => exact needsPass mark
  | false =>
      rw [refresh_of_stale mark] at succeeds
      dsimp only [Reply.mapAnswer] at succeeds
      cases answered : (dataset.analyze stages arena options).answer with
      | error fault =>
          rw [answered] at succeeds
          cases succeeds
      | ok effort => exact (declarations_of_collect_ok (planned_of_analyze_ok answered).1).1

/-- Nothing is declared without owners, so the first pass is the last. -/
theorem collect_of_no_owners {maxPasses : Option UInt64} (noOwners : dataset.owners = [])
    (somePass : maxPasses ≠ some 0) :
    ∃ effort, (dataset.collect stages arena maxPasses).answer = .ok effort := by
  have declared : dataset.declarations stages arena = .ok [] := by
    rw [declarations, ownerStages, noOwners]
    rfl
  have quiet : ¬ (AccessTable.pass [] {}).IsProductive := fun productive => productive.2 rfl
  have limitPos : 0 < maxPasses.elim (Declaration.passLimit []) UInt64.toNat := by
    cases maxPasses with
    | none => exact Nat.succ_pos _
    | some limit =>
        apply Nat.pos_of_ne_zero
        intro isZero
        exact somePass (congrArg some (UInt64.toNat_inj.mp isZero))
  obtain ⟨spare, limitEq⟩ := Nat.exists_eq_add_of_lt limitPos
  rw [collect_of_declarations declared somePass]
  dsimp only
  rw [limitEq, AccessTable.collectPasses_of_not_productive quiet]
  exact ⟨_, rfl⟩

theorem refresh_of_no_owners (noOwners : dataset.owners = [])
    (somePass : options.maxPasses ≠ some 0) :
    (dataset.refresh stages arena options).answer = .ok () := by
  cases mark : dataset.analyzed with
  | true => rw [refresh_of_analyzed mark]
  | false =>
      have staleNone : dataset.markStale.owners = [] := noOwners
      have noneMissing :
          ∀ owner ∈ dataset.markStale.owners, ∃ stage, stages owner = some stage := by
        simp [staleNone]
      have fits : dataset.markStale.owners.length ≤ OwnerKey.capacity := by
        simp [staleNone]
      obtain ⟨effort, collected⟩ := collect_of_no_owners staleNone somePass
      have retabled : (dataset.markStale.retable stages arena options).answer = .ok effort :=
        collected
      obtain ⟨plan, planned⟩ := exists_plan_of_retable_ok noneMissing fits retabled
      rw [refresh_of_stale mark]
      dsimp only [Reply.mapAnswer]
      rw [(analyze_of_plan_ok retabled planned).2]
      rfl

end Dataset

namespace Effect

variable {effect : Effect} {name : DatasetId} {dataset : Dataset}

/-- The dataset as analyzing it in the effect leaves it. -/
def refreshed (effect : Effect) (dataset : Dataset) : Dataset :=
  (dataset.refresh effect.stage? effect.arena effect.options).state

/-- Analyzing the dataset in the effect succeeds. -/
def Refreshes (effect : Effect) (dataset : Dataset) : Prop :=
  (dataset.refresh effect.stage? effect.arena effect.options).answer = .ok ()

theorem analyze_of_found (found : effect.dataset? name = some dataset) :
    effect.analyze name =
      (dataset.refresh effect.stage? effect.arena effect.options).mapState
        (effect.setDataset name) := by
  rw [analyze, analyzeAnew, dataset_eq_ok_iff.mpr found]
  dsimp only
  cases mark : dataset.analyzed with
  | true =>
      rw [if_pos rfl, Dataset.refresh_of_analyzed mark, Reply.mapState, setDataset_eq_self found]
  | false =>
      rw [Dataset.refresh_of_stale mark]
      rfl

theorem analyze_ok_iff (found : effect.dataset? name = some dataset) :
    (effect.analyze name).answer = .ok () ↔ effect.Refreshes dataset := by
  rw [analyze_of_found found]
  rfl

/-- An analysis changes the dataset that it is asked for and nothing else. -/
theorem state_analyze (effect : Effect) (name : DatasetId) :
    (effect.analyze name).state = effect.modifyDataset name effect.refreshed := by
  cases found : effect.dataset? name with
  | none =>
      have beyond := List.getElem?_eq_none_iff.mp found
      rw [analyze, Effect.dataset, found, modifyDataset, List.modify_eq_self beyond]
  | some dataset =>
      rw [analyze_of_found found, ← setDataset_eq_modifyDataset found effect.refreshed]
      rfl

/-- What the analyses of some datasets do, each on what the ones before it have left. -/
theorem run_analyses (effect : Effect) (ids : List DatasetId) :
    effect.run (ids.map .analyze) =
      { effect with
        datasets := (ids.map fun id => id.index.toNat).foldl
          (fun datasets place => datasets.modify place effect.refreshed) effect.datasets } := by
  induction ids generalizing effect with
  | nil => rfl
  | cons id ids ih =>
      have performed : effect.perform (.analyze id) = effect.modifyDataset id effect.refreshed :=
        state_analyze effect id
      rw [List.map_cons, run, List.foldl_cons, performed]
      exact ih (effect.modifyDataset id effect.refreshed)

/-- Once or more often, a dataset that can be analyzed is left in the same way. -/
theorem iterate_refreshed (refreshes : effect.Refreshes dataset) (times : Nat) :
    effect.refreshed^[times + 1] dataset = effect.refreshed dataset := by
  rw [Function.iterate_succ_apply]
  exact Function.iterate_fixed (Dataset.state_refresh_refresh refreshes) times

/-- Every dataset of the effect is named by one of some names. -/
def AllNamed (effect : Effect) (ids : List DatasetId) : Prop :=
  ∀ place < effect.datasets.length, ∃ id ∈ ids, id.index.toNat = place

/-- If all datasets can be analyzed, they are in any order. -/
theorem run_analyses_of_all (refreshes : ∀ dataset ∈ effect.datasets, effect.Refreshes dataset)
    {ids : List DatasetId} (allNamed : effect.AllNamed ids) :
    effect.run (ids.map .analyze) =
      { effect with datasets := effect.datasets.map effect.refreshed } := by
  rw [run_analyses]
  congr 1
  apply List.ext_getElem?
  intro place
  rw [getElem?_foldl_modify, List.getElem?_map]
  cases found : effect.datasets[place]? with
  | none => rfl
  | some dataset =>
      obtain ⟨placeLt, _⟩ := List.getElem?_eq_some_iff.mp found
      obtain ⟨id, member, placeEq⟩ := allNamed place placeLt
      have listed : place ∈ ids.map fun id => id.index.toNat :=
        List.mem_map.mpr ⟨id, member, placeEq⟩
      obtain ⟨times, countEq⟩ := Nat.exists_eq_add_of_lt (List.count_pos_iff.mpr listed)
      rw [countEq, Nat.zero_add, Option.map_some, Option.map_some,
        iterate_refreshed (refreshes dataset (List.mem_of_getElem? found))]

/-- Every dataset is refreshed before the ones after it, which are left as they are if it
fails. -/
theorem analyzeEach_cons (stages : StageId → Option Stage) (arena : ExpressionArena)
    (options : AnalysisOptions) (first : Dataset) (rest : List Dataset) :
    analyzeEach stages arena options (first :: rest) =
      let reply := first.refresh stages arena options
      match reply.answer with
      | .error fault =>
          { state := reply.state :: rest, events := reply.events, answer := .error fault }
      | .ok () =>
          let later := analyzeEach stages arena options rest
          { state := reply.state :: later.state
            events := reply.events ++ later.events
            answer := later.answer } := by
  rw [analyzeEach]
  cases mark : first.analyzed with
  | true =>
      rw [if_pos rfl, Dataset.refresh_of_analyzed mark]
      rfl
  | false =>
      rw [if_neg Bool.false_ne_true, Dataset.refresh_of_stale mark]
      dsimp only [Reply.mapAnswer]
      cases (first.analyze stages arena options).answer <;> rfl

/-- What analyzing some datasets in order leaves of them, and how it ends: all of them are
analyzed, or those before the first that fails. -/
inductive Sweep (effect : Effect) : List Dataset → List Dataset → Except Fault Unit → Prop
  | complete {datasets : List Dataset}
      (refreshes : ∀ dataset ∈ datasets, effect.Refreshes dataset) :
      Sweep effect datasets (datasets.map effect.refreshed) (.ok ())
  | stopped (before : List Dataset) (failing : Dataset) (after : List Dataset) {fault : Fault}
      (refreshes : ∀ dataset ∈ before, effect.Refreshes dataset)
      (fails : (failing.refresh effect.stage? effect.arena effect.options).answer = .error fault) :
      Sweep effect (before ++ failing :: after)
        (before.map effect.refreshed ++ effect.refreshed failing :: after) (.error fault)

namespace Sweep

variable {datasets left : List Dataset} {answer : Except Fault Unit}

/-- A dataset that can be analyzed comes before the others. -/
theorem cons (refreshes : effect.Refreshes dataset) (sweep : effect.Sweep datasets left answer) :
    effect.Sweep (dataset :: datasets) (effect.refreshed dataset :: left) answer := by
  cases sweep with
  | complete others => exact .complete (List.forall_mem_cons.mpr ⟨refreshes, others⟩)
  | stopped before failing after others fails =>
      exact .stopped (dataset :: before) failing after
        (List.forall_mem_cons.mpr ⟨refreshes, others⟩) fails

theorem answer_eq_ok_iff (sweep : effect.Sweep datasets left answer) :
    answer = .ok () ↔ ∀ dataset ∈ datasets, effect.Refreshes dataset := by
  cases sweep with
  | complete refreshes => exact iff_of_true rfl refreshes
  | stopped before failing after _ fails =>
      refine iff_of_false (fun impossible => nomatch impossible) ?_
      intro refreshes
      have failingRefreshes := refreshes failing (by simp)
      cases fails.symm.trans failingRefreshes

theorem left_of_ok (sweep : effect.Sweep datasets left (.ok ())) :
    left = datasets.map effect.refreshed := by
  cases sweep
  rfl

theorem exists_failing {fault : Fault} (sweep : effect.Sweep datasets left (.error fault)) :
    ∃ before failing after, datasets = before ++ failing :: after
      ∧ (∀ dataset ∈ before, effect.Refreshes dataset)
      ∧ (failing.refresh effect.stage? effect.arena effect.options).answer = .error fault
      ∧ left = before.map effect.refreshed ++ effect.refreshed failing :: after := by
  cases sweep with
  | stopped before failing after refreshes fails =>
      exact ⟨before, failing, after, rfl, refreshes, fails, rfl⟩

end Sweep

theorem sweep_analyzeEach (effect : Effect) (datasets : List Dataset) :
    effect.Sweep datasets
      (analyzeEach effect.stage? effect.arena effect.options datasets).state
      (analyzeEach effect.stage? effect.arena effect.options datasets).answer := by
  induction datasets with
  | nil => exact .complete (by simp)
  | cons first rest ih =>
      rw [analyzeEach_cons]
      dsimp only
      cases answered : (first.refresh effect.stage? effect.arena effect.options).answer with
      | error fault => exact .stopped [] first rest (by simp) answered
      | ok _ => exact ih.cons answered

theorem dataset?_ofNat {place : Nat} (placeLt : place < 2 ^ 32) :
    effect.dataset? ⟨UInt32.ofNat place⟩ = effect.datasets[place]? := by
  rw [dataset?, UInt32.toNat_ofNat_of_lt' placeLt]

/-- A dataset so late that no name means it was never assigned a stage, so its analysis does
not fail unless every analysis does. -/
theorem refreshes_of_unnamed (linked : effect.Linked) (needsPass : effect.AnalyzedNeedsPass)
    {place : Nat} (unnamed : 2 ^ 32 ≤ place) (found : effect.datasets[place]? = some dataset)
    (firstRefreshes : ∀ first, effect.datasets[0]? = some first → effect.Refreshes first) :
    effect.Refreshes dataset := by
  have noOwners : dataset.owners = [] := by
    rw [List.eq_nil_iff_forall_not_mem]
    intro owner isOwner
    obtain ⟨assigned, _, placeEq⟩ := linked.isAt_of_owner found isOwner
    have assignedLt := assigned.index.toNat_lt
    omega
  obtain ⟨first, firstFound⟩ : ∃ first, effect.datasets[0]? = some first := by
    obtain ⟨placeLt, _⟩ := List.getElem?_eq_some_iff.mp found
    exact ⟨_, List.getElem?_eq_getElem (Nat.lt_of_le_of_lt (Nat.zero_le place) placeLt)⟩
  have somePass := Dataset.somePass_of_refresh_ok (needsPass 0 first firstFound)
    (firstRefreshes first firstFound)
  exact Dataset.refresh_of_no_owners noOwners somePass

theorem refreshes_all (linked : effect.Linked) (needsPass : effect.AnalyzedNeedsPass)
    (named : ∀ (name : DatasetId) (dataset : Dataset), effect.dataset? name = some dataset →
      effect.Refreshes dataset) :
    ∀ dataset ∈ effect.datasets, effect.Refreshes dataset := by
  intro dataset member
  obtain ⟨place, found⟩ := List.mem_iff_getElem?.mp member
  rcases Nat.lt_or_ge place (2 ^ 32) with placeLt | unnamed
  · exact named _ dataset ((dataset?_ofNat placeLt).trans found)
  · exact refreshes_of_unnamed linked needsPass unnamed found (named ⟨0⟩)

/-- So the first dataset that cannot be analyzed has a name. -/
theorem lt_of_first_failing (linked : effect.Linked) (needsPass : effect.AnalyzedNeedsPass)
    {before after : List Dataset} {failing : Dataset} {fault : Fault}
    (datasetsEq : effect.datasets = before ++ failing :: after)
    (refreshes : ∀ dataset ∈ before, effect.Refreshes dataset)
    (fails : (failing.refresh effect.stage? effect.arena effect.options).answer = .error fault) :
    before.length < 2 ^ 32 := by
  by_contra notLt
  have unnamed : 2 ^ 32 ≤ before.length := Nat.le_of_not_lt notLt
  have failingFound : effect.datasets[before.length]? = some failing := by
    rw [datasetsEq]
    simp
  have failingRefreshes : effect.Refreshes failing := by
    apply refreshes_of_unnamed linked needsPass unnamed failingFound
    intro first firstFound
    have isEarlier : 0 < before.length := Nat.lt_of_lt_of_le (Nat.two_pow_pos 32) unnamed
    rw [datasetsEq, List.getElem?_append_left isEarlier] at firstFound
    exact refreshes first (List.mem_of_getElem? firstFound)
  cases fails.symm.trans failingRefreshes

/-- From the effect to the next one, datasets have been analyzed in order up to the first
that fails. -/
structure StopsAt (effect next : Effect) (name : DatasetId) (fault : Fault) : Prop where
  fails : (effect.analyze name).answer = .error fault
  earlier_succeed : ∀ other : DatasetId, other.index < name.index →
    (effect.analyze other).answer = .ok ()
  /-- The datasets before the failing one are as their analyses leave them. -/
  earlier_analyzed : ∀ other : DatasetId, other.index < name.index →
    ∃ dataset, next.dataset? other = some dataset ∧ dataset.analyzed = true
      ∧ (effect.analyze other).state.dataset? other = some dataset
  stale : ∃ dataset, next.dataset? name = some dataset ∧ dataset.analyzed = false
    ∧ (effect.analyze name).state.dataset? name = some dataset
  later_unchanged : ∀ place : Nat, name.index.toNat < place →
    next.datasets[place]? = effect.datasets[place]?
  /-- Nothing but datasets has changed. -/
  only_datasets : next = { effect with datasets := next.datasets }

theorem dataset?_analyze (effect : Effect) (name : DatasetId) :
    (effect.analyze name).state.dataset? name = (effect.dataset? name).map effect.refreshed := by
  rw [state_analyze, dataset?, modifyDataset, List.getElem?_modify, dataset?]
  simp

theorem StopsAt.of_datasets {before after : List Dataset} {failing : Dataset} {fault : Fault}
    (datasetsEq : effect.datasets = before ++ failing :: after)
    (refreshes : ∀ dataset ∈ before, effect.Refreshes dataset)
    (fails : (failing.refresh effect.stage? effect.arena effect.options).answer = .error fault)
    (placeEq : name.index.toNat = before.length) :
    effect.StopsAt
      { effect with datasets := before.map effect.refreshed ++ effect.refreshed failing :: after }
      name fault := by
  have failingFound : effect.dataset? name = some failing := by
    rw [dataset?, placeEq, datasetsEq]
    simp
  have earlierFound (other : DatasetId) (earlier : other.index < name.index) :
      ∃ dataset ∈ before, before[other.index.toNat]? = some dataset
        ∧ effect.dataset? other = some dataset := by
    have otherLt : other.index.toNat < before.length := placeEq ▸ earlier
    have here := List.getElem?_eq_getElem otherLt
    refine ⟨_, List.getElem_mem otherLt, here, ?_⟩
    rw [dataset?, datasetsEq, List.getElem?_append_left otherLt, here]
  refine ⟨?_, ?_, ?_, ?_, ?_, rfl⟩
  · rw [analyze_of_found failingFound]
    exact fails
  · intro other earlier
    obtain ⟨dataset, member, _, found⟩ := earlierFound other earlier
    exact (analyze_ok_iff found).mpr (refreshes dataset member)
  · intro other earlier
    obtain ⟨dataset, member, here, found⟩ := earlierFound other earlier
    have otherLt : other.index.toNat < (before.map effect.refreshed).length := by
      rw [List.length_map]
      exact placeEq ▸ earlier
    refine ⟨effect.refreshed dataset, ?_, ?_, ?_⟩
    · rw [dataset?, List.getElem?_append_left otherLt, List.getElem?_map, here]
      rfl
    · exact Dataset.analyzed_refresh_iff.mpr (refreshes dataset member)
    · rw [dataset?_analyze, found]
      rfl
  · refine ⟨effect.refreshed failing, ?_, ?_, ?_⟩
    · rw [dataset?, placeEq]
      simp
    · rw [← Bool.not_eq_true, refreshed, Dataset.analyzed_refresh_iff, fails]
      intro impossible
      cases impossible
    · rw [dataset?_analyze, failingFound]
      rfl
  · intro place later
    rw [placeEq] at later
    obtain ⟨further, rfl⟩ := Nat.exists_eq_add_of_lt later
    rw [datasetsEq]
    simp [List.getElem?_append, Nat.add_assoc]

/-- After any run, analyzing whatever is stale succeeds exactly if each dataset can be
analyzed by itself, and then all datasets count as analyzed and are what analyzing them one
by one makes of them, in whatever order.  Otherwise it ends with the fault of the first
dataset that cannot be analyzed, which is stale then; the datasets before it have been
analyzed, and the ones after it are as they were. -/
theorem analyzeStale_eq_analyses (options : AnalysisOptions) (actions : List Action) :
    let effect := (empty options).run actions
    let swept := effect.analyzeStale
    (swept.answer = .ok () ↔
        ∀ name dataset, effect.dataset? name = some dataset →
          (effect.analyze name).answer = .ok ())
      ∧ (swept.answer = .ok () →
        (∀ dataset ∈ swept.state.datasets, dataset.analyzed = true)
          ∧ ∀ names, effect.AllNamed names → effect.run (names.map .analyze) = swept.state)
      ∧ ∀ fault, swept.answer = .error fault → ∃ name, effect.StopsAt swept.state name fault := by
  intro effect swept
  have linked : effect.Linked := (linked_empty options).run actions
  have needsPass : effect.AnalyzedNeedsPass :=
    (AnalyzedNeedsPass.empty options).run (linked_empty options) actions
  have sweep : effect.Sweep effect.datasets swept.state.datasets swept.answer :=
    effect.sweep_analyzeEach effect.datasets
  have onlyDatasets : swept.state = { effect with datasets := swept.state.datasets } := rfl
  refine ⟨?_, ?_, ?_⟩
  · rw [sweep.answer_eq_ok_iff]
    constructor
    · intro refreshes name dataset found
      exact (analyze_ok_iff found).mpr (refreshes dataset (List.mem_of_getElem? found))
    · intro named
      exact refreshes_all linked needsPass fun name dataset found =>
        (analyze_ok_iff found).mp (named name dataset found)
  · intro succeeded
    have refreshes := sweep.answer_eq_ok_iff.mp succeeded
    have leftEq := (succeeded ▸ sweep).left_of_ok
    refine ⟨?_, ?_⟩
    · rw [leftEq, List.forall_mem_map]
      intro dataset member
      exact Dataset.analyzed_refresh_iff.mpr (refreshes dataset member)
    · intro names allNamed
      rw [run_analyses_of_all refreshes allNamed, ← leftEq, ← onlyDatasets]
  · intro fault failed
    obtain ⟨before, failing, after, datasetsEq, refreshes, fails, leftEq⟩ :=
      (failed ▸ sweep).exists_failing
    have placeLt := lt_of_first_failing linked needsPass datasetsEq refreshes fails
    rw [onlyDatasets, leftEq]
    exact ⟨⟨UInt32.ofNat before.length⟩,
      .of_datasets datasetsEq refreshes fails (UInt32.toNat_ofNat_of_lt' placeLt)⟩

/-- At first the second dataset cannot be analyzed, and the third is not looked at.  Without
the usage that has no mode all of them can, the last one named first and once more. -/
theorem analyzeStale_eq_analyses_mended :
    let mover : Stage := { kind := .update, usages := [.always (.readWrite .age)] }
    let broken : Stage :=
      { kind := .update, usages := [.always (.write .size), .always ⟨.color, ∅⟩] }
    let actions : List Action :=
      [.createDataset ⟨some .particle⟩, .createDataset ⟨some .particle⟩,
        .createDataset ⟨some .spawnEvent⟩, .insertStage mover, .insertStage broken,
        .assign ⟨0⟩ (some ⟨0⟩), .assign ⟨1⟩ (some ⟨1⟩)]
    let mend : Action := .modifyStage ⟨1⟩ fun stage => (stage.withoutUsages, ())
    let names : List DatasetId := [⟨2⟩, ⟨0⟩, ⟨1⟩, ⟨2⟩]
    let effect := (empty {}).run actions
    let mended := (empty {}).run (actions ++ [.analyzeStale, mend])
    effect.analyzeStale.answer = .error (.emptyAccess .color ⟨1⟩)
      ∧ (∃ name, effect.StopsAt effect.analyzeStale.state name (.emptyAccess .color ⟨1⟩))
      ∧ mended.analyzeStale.answer = .ok ()
      ∧ mended.AllNamed names
      ∧ mended.run (names.map .analyze) = mended.analyzeStale.state := by
  intro mover broken actions mend names effect mended
  have failed : effect.analyzeStale.answer = .error (.emptyAccess .color ⟨1⟩) := by decide
  have succeeded : mended.analyzeStale.answer = .ok () := by decide
  have allNamed : mended.AllNamed names := by
    unfold AllNamed
    decide
  exact ⟨failed, (analyzeStale_eq_analyses {} actions).2.2 _ failed, succeeded, allNamed,
    ((analyzeStale_eq_analyses {} (actions ++ [.analyzeStale, mend])).2.1 succeeded).2 names
      allNamed⟩

end Effect

end AttributeFlow
