import AttributeFlow.Dataset.Analysis
import AttributeFlow.Proofs.CollectionPasses
import AttributeFlow.Proofs.OwnerDeclarations

/-!
# The least use of attributes

What is declared determines a least set of used attributes: those of accesses
that always take place, and those of accesses whose trigger is used.  An access
contributes to the table if it is declared without a condition or its trigger is
in that set.

Passing over the declarations keeps every flag of the table justified by a
contribution, and a table on which a pass does nothing covers all contributions.
The table that a collection ends with is therefore the union of the
contributions, whatever the order of the declarations and however often they
repeat.
-/

namespace AttributeFlow

/-- The usage takes place with some attributes used. -/
def Usage.Holds (used : Attribute → Prop) : Usage → Prop
  | .always _ => True
  | .whenUsed _ trigger => used trigger

/-- The attributes that are used, as declarations trigger each other. -/
inductive Used (declares : StageId → Usage → Prop) : Attribute → Prop
  | always {stage : StageId} {access : Access} (declared : declares stage (.always access)) :
      Used declares access.attr
  | whenUsed {stage : StageId} {access : Access} {trigger : Attribute}
      (declared : declares stage (.whenUsed access trigger)) (used : Used declares trigger) :
      Used declares access.attr

/-- The stage makes the access, given which attributes are used. -/
def Contributes (declares : StageId → Usage → Prop) (stage : StageId) (access : Access) : Prop :=
  ∃ usage, declares stage usage ∧ usage.Holds (Used declares) ∧ usage.access = access

/-- The usage is declared and touches its attribute in some mode. -/
def Effective (declares : StageId → Usage → Prop) (stage : StageId) (usage : Usage) : Prop :=
  declares stage usage ∧ usage.access.mode ≠ ∅

/-- The stage makes an access without a mode, given the attributes that are used
by accesses with a mode. -/
def MakesEmptyAccess (declares : StageId → Usage → Prop) (stage : StageId) (access : Access) :
    Prop :=
  access.mode = ∅
    ∧ ∃ usage, declares stage usage ∧ usage.Holds (Used (Effective declares)) ∧ usage.access = access

variable {declares : StageId → Usage → Prop}

theorem Usage.resolve?_eq_some_iff {isUsed : Attribute → Bool} {usage : Usage} {access : Access} :
    usage.resolve? isUsed = some access ↔
      usage.Holds (fun attr => isUsed attr = true) ∧ usage.access = access := by
  cases usage with
  | always declared => simp [Usage.resolve?, Usage.Holds, Usage.access]
  | whenUsed declared trigger => simp [Usage.resolve?, Usage.Holds, Usage.access]

theorem Usage.Holds.mono {first second : Attribute → Prop} {usage : Usage}
    (holds : usage.Holds first) (within : ∀ attr, first attr → second attr) :
    usage.Holds second := by
  cases usage with
  | always access => trivial
  | whenUsed access trigger => exact within trigger holds

/-- The used attributes are those that some stage makes an access to. -/
theorem used_iff_contributes {attr : Attribute} :
    Used declares attr ↔ ∃ stage mode, Contributes declares stage ⟨attr, mode⟩ := by
  constructor
  · intro used
    cases used with
    | always declared => exact ⟨_, _, _, declared, trivial, rfl⟩
    | whenUsed declared used => exact ⟨_, _, _, declared, used, rfl⟩
  · intro contributed
    obtain ⟨stage, mode, usage, declared, holds, accessEq⟩ := contributed
    have attrEq : usage.access.attr = attr := congrArg Access.attr accessEq
    rw [← attrEq]
    cases usage with
    | always access => exact .always declared
    | whenUsed access trigger => exact .whenUsed declared holds

/-- The used attributes are in every set that is closed under contribution. -/
theorem Used.least {attr : Attribute} (used : Used declares attr) {closed : Attribute → Prop}
    (isClosed : ∀ stage usage, declares stage usage → usage.Holds closed →
      closed usage.access.attr) : closed attr := by
  induction used with
  | always declared => exact isClosed _ _ declared trivial
  | whenUsed declared _ ih => exact isClosed _ _ declared ih

theorem Used.mono {others : StageId → Usage → Prop} {attr : Attribute} (used : Used declares attr)
    (within : ∀ stage usage, declares stage usage → others stage usage) : Used others attr := by
  induction used with
  | always declared => exact .always (within _ _ declared)
  | whenUsed declared _ ih => exact .whenUsed (within _ _ declared) ih

theorem Contributes.mono {others : StageId → Usage → Prop} {stage : StageId} {access : Access}
    (contributes : Contributes declares stage access)
    (within : ∀ stage usage, declares stage usage → others stage usage) :
    Contributes others stage access := by
  obtain ⟨usage, declared, holds, accessEq⟩ := contributes
  exact ⟨usage, within stage usage declared, holds.mono fun _ used => used.mono within, accessEq⟩

theorem MakesEmptyAccess.mono {others : StageId → Usage → Prop} {stage : StageId} {access : Access}
    (makes : MakesEmptyAccess declares stage access)
    (within : ∀ stage usage, declares stage usage → others stage usage) :
    MakesEmptyAccess others stage access := by
  obtain ⟨isEmpty, usage, declared, holds, accessEq⟩ := makes
  refine ⟨isEmpty, usage, within stage usage declared, ?_, accessEq⟩
  exact holds.mono fun _ used => used.mono fun _ _ => And.imp_left (within _ _)

theorem MakesEmptyAccess.contributes {stage : StageId} {access : Access}
    (makes : MakesEmptyAccess declares stage access) : Contributes declares stage access := by
  obtain ⟨_, usage, declared, holds, accessEq⟩ := makes
  exact ⟨usage, declared, holds.mono fun _ used => used.mono fun _ _ => And.left, accessEq⟩

/-- Every usage of the group waits for a trigger that only usages of the group
touch. -/
def SupportsOnlyItself (declares group : StageId → Usage → Prop) : Prop :=
  ∀ stage usage, group stage usage → ∃ access trigger, usage = .whenUsed access trigger
    ∧ ∀ other support, declares other support → support.access.attr = trigger →
      group other support

theorem SupportsOnlyItself.not_holds {group : StageId → Usage → Prop}
    (supports : SupportsOnlyItself declares group) {stage : StageId} {usage : Usage}
    (member : group stage usage) : ¬ usage.Holds (Used declares) := by
  have not_used (attr : Attribute) (used : Used declares attr) : ¬ ∀ other support,
      declares other support → support.access.attr = attr → group other support := by
    induction used with
    | always declared =>
        intro onlyGroup
        obtain ⟨access, trigger, impossible, _⟩ := supports _ _ (onlyGroup _ _ declared rfl)
        cases impossible
    | whenUsed declared _ ih =>
        intro onlyGroup
        obtain ⟨access, trigger, same, triggerOnlyGroup⟩ :=
          supports _ _ (onlyGroup _ _ declared rfl)
        cases same
        exact ih triggerOnlyGroup
  obtain ⟨access, trigger, rfl, onlyGroup⟩ := supports stage usage member
  intro used
  exact not_used trigger used onlyGroup

namespace AccessTable

/-- Every flag of the table comes from a contribution. -/
def Justified (declares : StageId → Usage → Prop) (table : AccessTable) : Prop :=
  ∀ attr stage flag, (table.modeAt attr stage).Has flag →
    ∃ mode, Contributes declares stage ⟨attr, mode⟩ ∧ mode.Has flag

variable {table : AccessTable} {declarations : List Declaration}

theorem mem_resolve_iff {stage : StageId} {access : Access} :
    (stage, access) ∈ table.resolve declarations ↔
      ∃ usage, ⟨stage, usage⟩ ∈ declarations
        ∧ usage.Holds (fun attr => table.contains attr = true) ∧ usage.access = access := by
  rw [resolve, List.mem_filterMap]
  simp only [Declaration.resolve?, Option.map_eq_some_iff, Usage.resolve?_eq_some_iff]
  constructor
  · rintro ⟨⟨declaring, usage⟩, listed, found, ⟨holds, rfl⟩, same⟩
    cases same
    exact ⟨usage, listed, holds, rfl⟩
  · rintro ⟨usage, listed, holds, rfl⟩
    exact ⟨⟨stage, usage⟩, listed, usage.access, ⟨holds, rfl⟩, rfl⟩

theorem justified_empty : Justified declares {} := by
  intro attr stage flag present
  exact absurd present (Mode.not_has_empty flag)

theorem Justified.used (justified : table.Justified declares) (coherent : table.Coherent)
    {attr : Attribute} (contained : table.contains attr = true) : Used declares attr := by
  obtain ⟨stage, present⟩ := coherent.contains_iff.mp contained
  obtain ⟨flag, flagSet⟩ := Mode.ne_empty_iff.mp present
  obtain ⟨mode, contributes, _⟩ := justified attr stage flag flagSet
  exact used_iff_contributes.mpr ⟨stage, mode, contributes⟩

theorem Justified.pass (justified : table.Justified declares) (coherent : table.Coherent)
    (listed : ∀ stage usage, ⟨stage, usage⟩ ∈ declarations → usage.access.mode ≠ ∅ →
      declares stage usage) :
    (table.pass declarations).table.Justified declares := by
  intro attr stage flag present
  rcases coherent.origin_of_has_mergeAll present with before | ⟨mode, resolved, modeHas⟩
  · exact justified attr stage flag before
  · -- What holds for the attributes of the table holds for the used ones, because the
    -- attributes of a justified table are used.
    obtain ⟨usage, member, holds, accessEq⟩ := mem_resolve_iff.mp resolved
    have usedHolds : usage.Holds (Used declares) :=
      holds.mono fun attr contained => justified.used coherent contained
    have effective : usage.access.mode ≠ ∅ := by
      rw [accessEq]
      exact Mode.ne_empty_of_has modeHas
    exact ⟨mode, ⟨usage, listed stage usage member effective, usedHolds, accessEq⟩, modeHas⟩

theorem Justified.afterPasses (justified : table.Justified declares) (reached : table.Reached)
    (listed : ∀ stage usage, ⟨stage, usage⟩ ∈ declarations → usage.access.mode ≠ ∅ →
      declares stage usage) (passes : Nat) : (table.afterPasses declarations passes).Justified declares := by
  induction passes with
  | zero => exact justified
  | succ passes ih =>
      rw [afterPasses_succ_last]
      exact ih.pass (reached.afterPasses passes).coherent listed

section Settled

variable (coherent : table.Coherent) (settled : table.pass declarations = { table })
  (listed : ∀ stage usage, declares stage usage → ⟨stage, usage⟩ ∈ declarations)

include coherent settled listed

theorem covers_of_settled {stage : StageId} {usage : Usage} (declared : declares stage usage)
    (holds : usage.Holds fun attr => table.contains attr = true) :
    table.Covers stage usage.access := by
  have resolved : (stage, usage.access) ∈ table.resolve declarations :=
    mem_resolve_iff.mpr ⟨usage, listed stage usage declared, holds, rfl⟩
  have finished : (table.mergeAll (table.resolve declarations)).fault? = none := by
    rw [← pass, settled]
  have covers := coherent.covers_of_mergeAll finished stage usage.access resolved
  rwa [← pass, settled] at covers

theorem contains_of_used {attr : Attribute} (used : Used declares attr) :
    table.contains attr = true := by
  apply used.least
  intro stage usage declared holds
  exact (covers_of_settled coherent settled listed declared holds).contains coherent

theorem covers_of_contributes {stage : StageId} {access : Access}
    (contributes : Contributes declares stage access) : table.Covers stage access := by
  obtain ⟨usage, declared, holds, rfl⟩ := contributes
  apply covers_of_settled coherent settled listed declared
  exact holds.mono fun attr used => contains_of_used coherent settled listed used

end Settled

end AccessTable

namespace Dataset

variable {dataset : Dataset} {stages : StageId → Option Stage} {arena : ExpressionArena}
  {options : AnalysisOptions} {effort : Effort}

/-- A collection that succeeds leaves a table whose flags are justified by the usages
it has worked on and which covers all that these contribute. -/
theorem justified_and_covers_of_listed {maxPasses : Option UInt64}
    (collected : (dataset.collect stages arena maxPasses).answer = .ok effort)
    (listed : ∀ declarations, dataset.declarations stages arena = .ok declarations →
      ∀ stage usage, ⟨stage, usage⟩ ∈ declarations ↔ declares stage usage) :
    (dataset.collect stages arena maxPasses).state.Reached
      ∧ (dataset.collect stages arena maxPasses).state.Justified declares
      ∧ ∀ stage access, Contributes declares stage access →
        (dataset.collect stages arena maxPasses).state.Covers stage access := by
  obtain ⟨declarations, passes, declared, _, stateEq, settled, _⟩ := settled_of_collect_ok collected
  have listed := listed declarations declared
  have reached : (AccessTable.afterPasses declarations passes {}).Reached :=
    AccessTable.Reached.empty.afterPasses passes
  rw [stateEq]
  refine ⟨reached, ?_, ?_⟩
  · apply AccessTable.justified_empty.afterPasses AccessTable.Reached.empty
    exact fun stage usage member _ => (listed stage usage).mp member
  · intro stage access contributes
    exact AccessTable.covers_of_contributes reached.coherent settled
      (fun stage usage => (listed stage usage).mpr) contributes

/-- Without cycles, these usages are what the owners declare. -/
theorem justified_and_covers_of_collect_ok {maxPasses : Option UInt64}
    (acyclic : arena.Acyclic)
    (collected : (dataset.collect stages arena maxPasses).answer = .ok effort) :
    (dataset.collect stages arena maxPasses).state.Reached
      ∧ (dataset.collect stages arena maxPasses).state.Justified (dataset.Declares stages arena)
      ∧ ∀ stage access, Contributes (dataset.Declares stages arena) stage access →
        (dataset.collect stages arena maxPasses).state.Covers stage access :=
  justified_and_covers_of_listed collected fun _ declared _ _ => mem_declarations_iff acyclic declared

/-- A table of accesses that is made anew holds the least use of what the owners
declare: in every cell the union of the contributions, and no more. -/
theorem retable_eq_least_use (acyclic : arena.Acyclic)
    (retabled : (dataset.retable stages arena options).answer = .ok effort) :
    let table := (dataset.retable stages arena options).state.table
    let declares := dataset.Declares stages arena
    (∀ attr stage, (table.modeAt attr stage).IsUnionOf fun mode =>
        Contributes declares stage ⟨attr, mode⟩)
      ∧ (∀ stage access, Contributes declares stage access → table.Covers stage access)
      ∧ (∀ attr, table.contains attr = true ↔ Used declares attr)
      ∧ (∀ closed : Attribute → Prop,
        (∀ stage usage, declares stage usage → usage.Holds closed → closed usage.access.attr) →
          ∀ attr, table.contains attr = true → closed attr)
      ∧ (∀ stage, stage ∉ dataset.owners → ∀ attr, table.modeAt attr stage = ∅)
      ∧ ∀ group, SupportsOnlyItself declares group → ∀ stage usage, group stage usage →
        ¬ usage.Holds fun attr => table.contains attr = true := by
  intro table declares
  obtain ⟨reached, justified, covers⟩ :
      table.Reached ∧ table.Justified declares
        ∧ ∀ stage access, Contributes declares stage access → table.Covers stage access :=
    justified_and_covers_of_collect_ok acyclic retabled
  have coherent := reached.coherent
  have containsIff (attr : Attribute) : table.contains attr = true ↔ Used declares attr := by
    constructor
    · exact justified.used coherent
    · intro used
      obtain ⟨stage, mode, contributes⟩ := used_iff_contributes.mp used
      exact (covers stage ⟨attr, mode⟩ contributes).contains coherent
  refine ⟨?_, covers, containsIff, ?_, ?_, ?_⟩
  · intro attr stage flag
    constructor
    · exact justified attr stage flag
    · intro contributed
      obtain ⟨mode, contributes, modeHas⟩ := contributed
      exact Mode.includes_iff.mp (covers stage ⟨attr, mode⟩ contributes).2 flag modeHas
  · intro closed isClosed attr contained
    exact ((containsIff attr).mp contained).least isClosed
  · intro stage notOwner attr
    rw [Mode.eq_empty_iff]
    intro flag present
    obtain ⟨mode, ⟨usage, declared, _⟩, _⟩ := justified attr stage flag present
    exact notOwner declared.1
  · intro group supports stage usage member holds
    have usedHolds : usage.Holds (Used declares) :=
      holds.mono fun attr contained => (containsIff attr).mp contained
    exact supports.not_holds member usedHolds

theorem retable_eq_least_use_chain :
    let first : Stage := { kind := .init, usages := [.always (.write .position)] }
    let second : Stage :=
      { kind := .update
        usages := [.whenUsed (.write .age) .velocity, .whenUsed (.readWrite .velocity) .position]
        optional := [.whenUsed (.write .color) .alpha, .whenUsed (.write .alpha) .color]
        expressions := { gpu := [⟨1⟩] } }
    let arena : ExpressionArena := ⟨#[⟨"size", true, [], [.read .size]⟩, ⟨"sum", true, [⟨0⟩], []⟩]⟩
    let stages (id : StageId) : Option Stage :=
      if id = ⟨0⟩ then some first else if id = ⟨1⟩ then some second else none
    let dataset : Dataset := { id := ⟨0⟩, kind := .particle, owners := [⟨0⟩, ⟨1⟩] }
    let table := (dataset.retable stages arena {}).state.table
    arena.Acyclic
      ∧ (dataset.retable stages arena {}).answer = .ok ⟨4, 4⟩
      ∧ (table.modeAt .age ⟨1⟩).IsUnionOf (fun mode =>
        Contributes (dataset.Declares stages arena) ⟨1⟩ ⟨.age, mode⟩)
      ∧ table.modeAt .age ⟨1⟩ = .writeCurrent
      ∧ Used (dataset.Declares stages arena) .size
      ∧ ¬ Used (dataset.Declares stages arena) .color := by
  intro first second arena stages dataset table
  have acyclic : arena.Acyclic := ExpressionArena.acyclic_of_inputs_earlier (by decide)
  have retabled : (dataset.retable stages arena {}).answer = .ok ⟨4, 4⟩ := by decide
  have least := retable_eq_least_use acyclic retabled
  refine ⟨acyclic, retabled, least.1 .age ⟨1⟩, by decide, ?_, ?_⟩
  · exact (least.2.2.1 .size).mp (by decide)
  · intro used
    have contained := (least.2.2.1 .color).mpr used
    exact absurd contained (by decide)

end Dataset

end AttributeFlow
