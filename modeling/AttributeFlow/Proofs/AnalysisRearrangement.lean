import AttributeFlow.Proofs.AnalysisFaults
import AttributeFlow.Proofs.MovedKeys
import Mathlib.Data.Finset.Dedup

/-!
# Analyses of owners that are rearranged

Owners may be listed in another order, and every stage may list its usages,
operations and expressions in another order and as often as it likes.  Two such
collections merge in different orders and go through different tables, but both end
with what the same set of usages gives rise to.  So both analyses succeed or neither
does, and up to the places of owners they find the same.
-/

namespace AttributeFlow

/-- The usages that a stage has for datasets whose expressions are evaluated on a device:
its own, those of its active operations, the accesses of its expressions and its
optional ones. -/
def Stage.usageSet (arena : ExpressionArena) (device : Device) (stage : Stage) : Finset Usage :=
  (stage.declared ++ ((stage.expressions.on device).flatMap arena.collect).map Usage.always
    ++ stage.optional).toFinset

theorem Stage.mem_usageSet_iff {arena : ExpressionArena} {device : Device} (id : StageId)
    {stage : Stage} {usage : Usage} :
    usage ∈ stage.usageSet arena device ↔
      ⟨id, usage⟩ ∈ Declaration.required arena device id stage
        ∨ ⟨id, usage⟩ ∈ Declaration.optional id stage := by
  simp [usageSet, Declaration.required, Declaration.optional, or_assoc]

namespace Dataset

variable {dataset other : Dataset} {stages otherStages : StageId → Option Stage}
  {arena otherArena : ExpressionArena} {options : AnalysisOptions}

/-- The two datasets are of the same kind and have the same owners, in any order, and
every owner has the same kind and the same set of usages. -/
structure Rearranges (dataset other : Dataset) (stages otherStages : StageId → Option Stage)
    (arena otherArena : ExpressionArena) : Prop where
  kind_eq : dataset.kind = other.kind
  ownersPerm : dataset.owners.Perm other.owners
  kinds_eq : ∀ owner ∈ dataset.owners,
    (stages owner).map Stage.kind = (otherStages owner).map Stage.kind
  usages_eq : ∀ owner ∈ dataset.owners,
    (stages owner).map (Stage.usageSet arena dataset.kind.device) =
      (otherStages owner).map (Stage.usageSet otherArena dataset.kind.device)

/-- An owner of the dataset has the usage. -/
def Offers (dataset : Dataset) (stages : StageId → Option Stage) (arena : ExpressionArena)
    (id : StageId) (usage : Usage) : Prop :=
  id ∈ dataset.owners
    ∧ ∃ usages, (stages id).map (Stage.usageSet arena dataset.kind.device) = some usages
      ∧ usage ∈ usages

/-- What it takes for an analysis without a limit to succeed. -/
structure IsAnalyzable (dataset : Dataset) (stages : StageId → Option Stage)
    (arena : ExpressionArena) : Prop where
  ownersKnown : ∀ owner ∈ dataset.owners, ∃ kind, (stages owner).map Stage.kind = some kind
  noneEmpty : ¬ ∃ stage access, MakesEmptyAccess (dataset.Offers stages arena) stage access
  fits : dataset.owners.length ≤ OwnerKey.capacity

theorem mem_declarations_iff_offers {declarations : List Declaration}
    (declared : dataset.declarations stages arena = .ok declarations) {id : StageId}
    {usage : Usage} : ⟨id, usage⟩ ∈ declarations ↔ dataset.Offers stages arena id usage := by
  rw [mem_declarations_iff_listed declared, Offers]
  simp only [← Stage.mem_usageSet_iff, Option.map_eq_some_iff, and_congr_right_iff]
  intro _
  constructor
  · rintro ⟨stage, known, member⟩
    exact ⟨_, ⟨stage, known, rfl⟩, member⟩
  · rintro ⟨_, ⟨stage, known, rfl⟩, member⟩
    exact ⟨stage, known, member⟩

theorem justified_and_covers_of_offers {maxPasses : Option UInt64} {effort : Effort}
    (collected : (dataset.collect stages arena maxPasses).answer = .ok effort) :
    (dataset.collect stages arena maxPasses).state.Reached
      ∧ (dataset.collect stages arena maxPasses).state.Justified (dataset.Offers stages arena)
      ∧ ∀ stage access, Contributes (dataset.Offers stages arena) stage access →
        (dataset.collect stages arena maxPasses).state.Covers stage access :=
  justified_and_covers_of_listed collected
    fun _ declared _ _ => mem_declarations_iff_offers declared

theorem isAnalyzable_of_analyze_ok {effort : Effort}
    (succeeded : (dataset.analyze stages arena options).answer = .ok effort) :
    dataset.IsAnalyzable stages arena := by
  obtain ⟨retabled, plan, planned, _⟩ := planned_of_analyze_ok succeeded
  refine ⟨?_, ?_, (Classification.settled_of_plan planned).1⟩
  · obtain ⟨_, declarations, declared⟩ := declarations_of_collect_ok retabled
    obtain ⟨owners, found, _⟩ := exists_ownerStages_of_declarations_ok declared
    intro owner isOwner
    obtain ⟨stage, known⟩ := exists_stage_of_ownerStages found isOwner
    exact ⟨stage.kind, congrArg (Option.map Stage.kind) known⟩
  · rintro ⟨stage, access, makes⟩
    obtain ⟨_, _, covers⟩ := justified_and_covers_of_offers retabled
    exact (covers stage access makes.contributes).1 makes.1

theorem analyze_ok_of_isAnalyzable (unlimited : options.maxPasses = none)
    (analyzable : dataset.IsAnalyzable stages arena) :
    ∃ effort, (dataset.analyze stages arena options).answer = .ok effort := by
  have ownersExist : ∀ owner ∈ dataset.owners, ∃ stage, stages owner = some stage := by
    intro owner isOwner
    obtain ⟨kind, kindEq⟩ := analyzable.ownersKnown owner isOwner
    obtain ⟨stage, known, _⟩ := Option.map_eq_some_iff.mp kindEq
    exact ⟨stage, known⟩
  cases retabled : (dataset.markStale.retable stages arena options).answer with
  | ok effort =>
      obtain ⟨plan, planned⟩ :=
        dataset.markStale.exists_plan_of_retable_ok ownersExist analyzable.fits retabled
      exact ⟨effort, (analyze_of_plan_ok retabled planned).2⟩
  | error fault =>
      have failed : (dataset.markStale.collect stages arena none).answer = .error fault :=
        unlimited ▸ retabled
      rcases fault_of_collect_error failed with
        ⟨owner, isOwner, missing, _⟩ | ⟨declarations, declared, stage, access, makes, _⟩
      · obtain ⟨stage, known⟩ := ownersExist owner isOwner
        rw [missing] at known
        cases known
      · have offered : MakesEmptyAccess (dataset.Offers stages arena) stage access :=
          makes.mono fun _ _ listed => (mem_declarations_iff_offers declared).mp listed
        exact absurd ⟨stage, access, offered⟩ analyzable.noneEmpty

theorem exists_analyze_ok_iff_isAnalyzable (unlimited : options.maxPasses = none) :
    (∃ effort, (dataset.analyze stages arena options).answer = .ok effort) ↔
      dataset.IsAnalyzable stages arena :=
  ⟨fun ⟨_, succeeded⟩ => isAnalyzable_of_analyze_ok succeeded,
    analyze_ok_of_isAnalyzable unlimited⟩

namespace Rearranges

theorem symm (rearranges : dataset.Rearranges other stages otherStages arena otherArena) :
    other.Rearranges dataset otherStages stages otherArena arena where
  kind_eq := rearranges.kind_eq.symm
  ownersPerm := rearranges.ownersPerm.symm
  kinds_eq owner isOwner :=
    (rearranges.kinds_eq owner (rearranges.ownersPerm.mem_iff.mpr isOwner)).symm
  usages_eq owner isOwner := by
    rw [← rearranges.kind_eq]
    exact (rearranges.usages_eq owner (rearranges.ownersPerm.mem_iff.mpr isOwner)).symm

/-- Name, table, plan and mark do not matter. -/
theorem of_sameOwners (rearranges : dataset.Rearranges other stages otherStages arena otherArena)
    {after otherAfter : Dataset} (same : after.SameOwners dataset)
    (otherSame : otherAfter.SameOwners other) :
    after.Rearranges otherAfter stages otherStages arena otherArena := by
  refine ⟨?_, ?_, ?_, ?_⟩
  · rw [same.kind_eq, otherSame.kind_eq, rearranges.kind_eq]
  · rw [same.owners_eq, otherSame.owners_eq]
    exact rearranges.ownersPerm
  · rw [same.owners_eq]
    exact rearranges.kinds_eq
  · rw [same.owners_eq, same.kind_eq]
    exact rearranges.usages_eq

theorem offers (rearranges : dataset.Rearranges other stages otherStages arena otherArena)
    {id : StageId} {usage : Usage} (offered : dataset.Offers stages arena id usage) :
    other.Offers otherStages otherArena id usage := by
  obtain ⟨isOwner, usages, usagesEq, member⟩ := offered
  refine ⟨rearranges.ownersPerm.mem_iff.mp isOwner, usages, ?_, member⟩
  rw [← rearranges.kind_eq, ← rearranges.usages_eq id isOwner, usagesEq]

theorem isAnalyzable (rearranges : dataset.Rearranges other stages otherStages arena otherArena)
    (analyzable : dataset.IsAnalyzable stages arena) :
    other.IsAnalyzable otherStages otherArena := by
  refine ⟨?_, ?_, ?_⟩
  · intro owner isOwner
    have wasOwner := rearranges.ownersPerm.mem_iff.mpr isOwner
    rw [← rearranges.kinds_eq owner wasOwner]
    exact analyzable.ownersKnown owner wasOwner
  · rintro ⟨stage, access, makes⟩
    exact analyzable.noneEmpty ⟨stage, access, makes.mono fun _ _ => rearranges.symm.offers⟩
  · rw [← rearranges.ownersPerm.length_eq]
    exact analyzable.fits

/-- Flags of the one table are justified by usages that the other one covers. -/
private theorem within (rearranges : dataset.Rearranges other stages otherStages arena otherArena)
    (current : dataset.IsCurrent stages arena options)
    (otherCurrent : other.IsCurrent otherStages otherArena options) :
    dataset.table.Within other.table := by
  obtain ⟨effort, collected⟩ := current.collected
  obtain ⟨otherEffort, otherCollected⟩ := otherCurrent.collected
  obtain ⟨_, justified, _⟩ := justified_and_covers_of_offers collected
  obtain ⟨_, _, covers⟩ := justified_and_covers_of_offers otherCollected
  rw [current.table_eq] at justified
  rw [otherCurrent.table_eq] at covers
  intro attr id flag present
  obtain ⟨mode, contributes, modeHas⟩ := justified attr id flag present
  have covered := covers id ⟨attr, mode⟩ (contributes.mono fun _ _ => rearranges.offers)
  exact Mode.includes_iff.mp covered.2 flag modeHas

theorem sameModes (rearranges : dataset.Rearranges other stages otherStages arena otherArena)
    (current : dataset.IsCurrent stages arena options)
    (otherCurrent : other.IsCurrent otherStages otherArena options) :
    dataset.table.SameModes other.table (fun id => (stages id).map Stage.kind)
      fun id => (otherStages id).map Stage.kind := by
  refine ⟨current.coherent, otherCurrent.coherent, ?_, ?_⟩
  · intro attr id
    apply Mode.ext_has
    intro flag
    constructor
    · exact rearranges.within current otherCurrent attr id flag
    · exact rearranges.symm.within otherCurrent current attr id flag
  · intro row member
    exact rearranges.kinds_eq row.stage (current.mem_owners row member)

end Rearranges

/-- Where owners and what they declare are rearranged and no limit is set, one analysis
succeeds exactly if the other does.  Both then find the same facts, the same attributes
are local and the same are shared, and the key of a shared attribute is brought along
by moving the bits of every owner to its new place. -/
theorem analyze_rearranged
    (rearranges : dataset.Rearranges other stages otherStages arena otherArena)
    (distinct : dataset.owners.Nodup) (unlimited : options.maxPasses = none) :
    let after := dataset.analyze stages arena options
    let otherAfter := other.analyze otherStages otherArena options
    ((∃ effort, after.answer = .ok effort) ↔ ∃ effort, otherAfter.answer = .ok effort)
      ∧ ∀ effort, after.answer = .ok effort →
        after.state.table.sameFacts otherAfter.state.table = true
          ∧ otherAfter.state.table.sameFacts after.state.table = true
          ∧ (∀ attr, otherAfter.state.plan.isLocal attr = after.state.plan.isLocal attr)
          ∧ (∀ attr, otherAfter.state.plan.isShared attr = after.state.plan.isShared attr)
          ∧ ∀ attr, otherAfter.state.plan.key? attr =
            (after.state.plan.key? attr).map (OwnerKey.moved dataset.owners other.owners) := by
  intro after otherAfter
  have succeedsIff : (∃ effort, after.answer = .ok effort) ↔
      ∃ effort, otherAfter.answer = .ok effort := by
    rw [exists_analyze_ok_iff_isAnalyzable unlimited, exists_analyze_ok_iff_isAnalyzable unlimited]
    exact ⟨rearranges.isAnalyzable, rearranges.symm.isAnalyzable⟩
  refine ⟨succeedsIff, ?_⟩
  intro effort succeeded
  obtain ⟨otherEffort, otherSucceeded⟩ := succeedsIff.mp ⟨effort, succeeded⟩
  have owners := (dataset.analyze_outcome stages arena options).1
  have otherOwners := (other.analyze_outcome otherStages otherArena options).1
  have current : after.state.IsCurrent stages arena options := isCurrent_of_analyze_ok succeeded
  have otherCurrent : otherAfter.state.IsCurrent otherStages otherArena options :=
    isCurrent_of_analyze_ok otherSucceeded
  have analyzedRearranges :
      after.state.Rearranges otherAfter.state stages otherStages arena otherArena :=
    rearranges.of_sameOwners owners otherOwners
  have same := analyzedRearranges.sameModes current otherCurrent
  have sameFacts := (same.coherent.sameFacts_iff same.otherCoherent).mpr same.modeAt_eq
  have otherSameFacts := (same.otherCoherent.sameFacts_iff same.coherent).mpr same.symm.modeAt_eq
  refine ⟨sameFacts, otherSameFacts, same.isLocal_eq current.plan_eq otherCurrent.plan_eq,
    same.isShared_eq current.plan_eq otherCurrent.plan_eq, ?_⟩
  rw [← owners.owners_eq, ← otherOwners.owners_eq]
  exact same.key?_eq_moved current.plan_eq otherCurrent.plan_eq (owners.owners_eq ▸ distinct)
    analyzedRearranges.ownersPerm analyzedRearranges.kinds_eq

/-- The three owners go one place on, and the second one declares in another order, in
other parts and twice over. -/
theorem analyze_rearranged_rotated :
    let writer : Stage := { kind := .init, usages := [.always (.write .color)] }
    let mover : Stage :=
      { kind := .update
        usages := [.whenUsed (.write .age) .size, .always (.readWrite .color)]
        expressions := { gpu := [⟨0⟩, ⟨1⟩] } }
    let otherMover : Stage :=
      { kind := .update
        usages := [.always (.readWrite .color)]
        expressions := { gpu := [⟨1⟩, ⟨0⟩, ⟨0⟩] }
        operations := [⟨"grow", ⟨2⟩, true,
          [.whenUsed (.write .age) .size, .whenUsed (.write .age) .size]⟩] }
    let reader : Stage := { kind := .output, usages := [.always (.read .color)] }
    let arena : ExpressionArena := ⟨#[⟨"size", true, [], [.read .size]⟩, ⟨"one", false, [], []⟩]⟩
    let stages (id : StageId) : Option Stage :=
      if id = ⟨0⟩ then some writer else if id = ⟨1⟩ then some mover else some reader
    let otherStages (id : StageId) : Option Stage :=
      if id = ⟨0⟩ then some writer else if id = ⟨1⟩ then some otherMover else some reader
    let dataset : Dataset := { id := ⟨0⟩, kind := .particle, owners := [⟨0⟩, ⟨1⟩, ⟨2⟩] }
    let other : Dataset := { id := ⟨0⟩, kind := .particle, owners := [⟨2⟩, ⟨0⟩, ⟨1⟩] }
    let after := dataset.analyze stages arena {}
    let otherAfter := other.analyze otherStages arena {}
    dataset.Rearranges other stages otherStages arena arena
      ∧ dataset.owners.Nodup
      ∧ after.answer = .ok ⟨3, 5⟩
      ∧ after.state.plan.key? .color = some 28
      ∧ OwnerKey.moved dataset.owners other.owners 28 = 49
      ∧ otherAfter.state.plan.key? .color = some 49
      ∧ after.state.table.sameFacts otherAfter.state.table = true
      ∧ (∀ attr, otherAfter.state.plan.isLocal attr = after.state.plan.isLocal attr)
      ∧ ∃ effort, otherAfter.answer = .ok effort := by
  intro writer mover otherMover reader arena stages otherStages dataset other
  have rearranges : dataset.Rearranges other stages otherStages arena arena :=
    ⟨rfl, by decide, by decide, by decide⟩
  have distinct : dataset.owners.Nodup := by decide
  have analyzed : (dataset.analyze stages arena {}).answer = .ok ⟨3, 5⟩ := by decide
  have unlimited : ({} : AnalysisOptions).maxPasses = none := rfl
  have rearranged := analyze_rearranged rearranges distinct unlimited
  have found := rearranged.2 _ analyzed
  exact ⟨rearranges, distinct, analyzed, by decide, by decide, by decide, found.1, found.2.2.1,
    rearranged.1.mp ⟨_, analyzed⟩⟩

end Dataset

end AttributeFlow
