import AttributeFlow.Proofs.AccessTableViews
import AttributeFlow.Proofs.AnalysisDependence
import AttributeFlow.Proofs.PlacementMeaning

/-!
# Shared and local attributes

The plan of an analysis has one entry for each attribute of the table, in the order
in which the attributes were first seen.  An entry is shared or local, so the shared
and the local attributes are two parts of one list.

A plan may also be filled entry by entry, together with an index that sends each
attribute to the place of its entry.  As long as no attribute comes twice, looking an
attribute up through the index is the same as looking for its entry.
-/

namespace AttributeFlow

namespace PlacementPlan

variable {plan : PlacementPlan} {attr : Attribute} {placement : Placement} {key : OwnerKey}

theorem placement?_eq_some_iff (distinct : (plan.entries.map Prod.fst).Nodup) :
    plan.placement? attr = some placement ↔ (attr, placement) ∈ plan.entries := by
  constructor
  · intro placed
    obtain ⟨⟨name, _⟩, found, rfl⟩ := Option.map_eq_some_iff.mp placed
    obtain rfl : name = attr := by simpa using List.find?_some found
    exact List.mem_of_find?_eq_some found
  · exact placement?_of_mem distinct

theorem mem_shared_iff : (attr, key) ∈ plan.shared ↔ (attr, .shared key) ∈ plan.entries := by
  rw [shared, List.mem_filterMap]
  constructor
  · rintro ⟨⟨name, placement⟩, member, found⟩
    cases placement with
    | stageLocal => cases found
    | shared entryKey =>
        cases found
        exact member
  · intro member
    exact ⟨_, member, rfl⟩

theorem map_fst_shared (plan : PlacementPlan) :
    plan.shared.map Prod.fst =
      (plan.entries.filter fun entry => !(entry.2 == .stageLocal)).map Prod.fst := by
  obtain ⟨entries⟩ := plan
  rw [shared]
  induction entries with
  | nil => rfl
  | cons entry entries ih =>
      obtain ⟨name, placement⟩ := entry
      cases placement with
      | stageLocal => exact ih
      | shared key => exact congrArg (name :: ·) ih

theorem stageLocals_sublist (plan : PlacementPlan) :
    plan.stageLocals.Sublist (plan.entries.map Prod.fst) :=
  List.filter_sublist.map Prod.fst

theorem shared_sublist (plan : PlacementPlan) :
    (plan.shared.map Prod.fst).Sublist (plan.entries.map Prod.fst) := by
  rw [map_fst_shared]
  exact List.filter_sublist.map Prod.fst

/-- The shared and the local attributes are all attributes, each as often as it has
entries. -/
theorem stageLocals_append_shared_perm (plan : PlacementPlan) :
    (plan.stageLocals ++ plan.shared.map Prod.fst).Perm (plan.entries.map Prod.fst) := by
  rw [map_fst_shared, stageLocals, ← List.map_append]
  exact (List.filter_append_perm (fun entry => entry.2 == .stageLocal) plan.entries).map Prod.fst

theorem key?_eq_some_iff (distinct : (plan.entries.map Prod.fst).Nodup) :
    plan.key? attr = some key ↔ (attr, key) ∈ plan.shared := by
  rw [mem_shared_iff, ← placement?_eq_some_iff distinct, key?, Option.bind_eq_some_iff]
  constructor
  · rintro ⟨placement, placed, keyEq⟩
    cases placement with
    | stageLocal => cases keyEq
    | shared entryKey =>
        cases keyEq
        exact placed
  · intro placed
    exact ⟨_, placed, rfl⟩

theorem isLocal_eq (plan : PlacementPlan) (attr : Attribute) :
    plan.isLocal attr = ((plan.placement? attr).isSome && !plan.isShared attr) := by
  rw [isLocal, isShared, key?]
  cases plan.placement? attr with
  | none => rfl
  | some placement => cases placement <;> rfl

theorem isSome_placement?_iff :
    (plan.placement? attr).isSome = true ↔ attr ∈ plan.entries.map Prod.fst := by
  rw [placement?, Option.isSome_map, List.find?_isSome, List.mem_map]
  simp

/-- An attribute has an entry if it is either local or shared, and without an entry it
is neither. -/
theorem isLocal_bne_isShared (plan : PlacementPlan) (attr : Attribute) :
    (plan.isLocal attr != plan.isShared attr) = (plan.placement? attr).isSome
      ∧ (plan.placement? attr = none → plan.isLocal attr = false ∧ plan.isShared attr = false) := by
  rw [isLocal, isShared, key?]
  cases plan.placement? attr with
  | none => simp
  | some placement => cases placement <;> simp [Placement.key?]

end PlacementPlan

/-- A plan that is being filled, with an index from attributes to places. -/
structure IndexedPlan where
  entries : List (Attribute × Placement) := []
  place? : Attribute → Option Nat := fun _ => none

namespace IndexedPlan

/-- Append an entry, and let the index send its attribute to the new place. -/
def push (plan : IndexedPlan) (entry : Attribute × Placement) : IndexedPlan :=
  { entries := plan.entries ++ [entry]
    place? := fun attr => if attr = entry.1 then some plan.entries.length else plan.place? attr }

def ofEntries (entries : List (Attribute × Placement)) : IndexedPlan :=
  entries.foldl push {}

/-- Look an attribute up at the place that the index gives. -/
def placement? (plan : IndexedPlan) (attr : Attribute) : Option Placement :=
  (plan.place? attr).bind fun place => (plan.entries[place]?).map Prod.snd

/-- The index sends every attribute to the place of its entry. -/
def IsIndexed (plan : IndexedPlan) : Prop :=
  ∀ attr place, plan.place? attr = some place ↔
    ∃ placement, plan.entries[place]? = some (attr, placement)

variable {plan : IndexedPlan}

theorem isIndexed_empty : IsIndexed {} := by
  intro attr place
  simp

theorem IsIndexed.push (indexed : plan.IsIndexed) {entry : Attribute × Placement}
    (isNew : entry.1 ∉ plan.entries.map Prod.fst) : (plan.push entry).IsIndexed := by
  intro attr place
  rw [IndexedPlan.push]
  dsimp only
  by_cases same : attr = entry.1
  · subst same
    rw [if_pos rfl, Option.some.injEq]
    constructor
    · rintro rfl
      exact ⟨entry.2, by simp⟩
    · rintro ⟨placement, found⟩
      by_contra different
      have placeLt := (List.getElem?_eq_some_iff.mp found).1
      rw [List.length_append, List.length_singleton] at placeLt
      rw [List.getElem?_append_left (by omega)] at found
      exact isNew (List.mem_map.mpr ⟨_, List.mem_of_getElem? found, rfl⟩)
  · rw [if_neg same, indexed attr place]
    apply exists_congr
    intro placement
    rw [List.getElem?_append]
    split
    · rfl
    · next beyond =>
        have missing : plan.entries[place]? = none :=
          List.getElem?_eq_none (Nat.le_of_not_lt beyond)
        rw [missing, List.getElem?_singleton]
        constructor
        · intro impossible
          cases impossible
        · split
          · intro found
            cases found
            exact absurd rfl same
          · intro impossible
            cases impossible

theorem foldl_push (indexed : plan.IsIndexed) {later : List (Attribute × Placement)}
    (distinct : ((plan.entries ++ later).map Prod.fst).Nodup) :
    (later.foldl push plan).entries = plan.entries ++ later
      ∧ (later.foldl push plan).IsIndexed := by
  induction later generalizing plan with
  | nil => exact ⟨(List.append_nil _).symm, indexed⟩
  | cons entry later ih =>
      have isNew : entry.1 ∉ plan.entries.map Prod.fst := by
        rw [List.map_append, List.nodup_append] at distinct
        intro member
        exact distinct.2.2 _ member _ List.mem_cons_self rfl
      have pushedEq : (plan.push entry).entries ++ later = plan.entries ++ entry :: later := by
        simp [push]
      rw [← pushedEq] at distinct ⊢
      exact ih (indexed.push isNew) distinct

theorem ofEntries_spec {entries : List (Attribute × Placement)}
    (distinct : (entries.map Prod.fst).Nodup) :
    (ofEntries entries).entries = entries ∧ (ofEntries entries).IsIndexed :=
  foldl_push isIndexed_empty distinct

/-- Looking up through the index is looking for the entry. -/
theorem placement?_ofEntries {plan : PlacementPlan}
    (distinct : (plan.entries.map Prod.fst).Nodup) (attr : Attribute) :
    (ofEntries plan.entries).placement? attr = plan.placement? attr := by
  obtain ⟨entriesEq, indexed⟩ := ofEntries_spec distinct
  ext placement
  rw [PlacementPlan.placement?_eq_some_iff distinct, placement?, Option.bind_eq_some_iff,
    entriesEq, List.mem_iff_getElem?]
  apply exists_congr
  intro place
  rw [indexed attr place, entriesEq]
  constructor
  · rintro ⟨⟨other, found⟩, placed⟩
    rw [found] at placed ⊢
    cases placed
    rfl
  · intro found
    exact ⟨⟨placement, found⟩, by rw [found]; rfl⟩

end IndexedPlan

namespace Dataset

variable {dataset : Dataset} {stages : StageId → Option Stage} {arena : ExpressionArena}
  {options : AnalysisOptions} {effort : Effort}

/-- After an analysis that succeeds, the plan has one entry for each attribute of the
table, in the order in which the attributes were first seen.  The shared and the local
attributes are disjoint parts of that list and together all of it.  An attribute that is
used is either shared or local, and any other one is neither; looking it up, directly or
through an index of places, gives its entry, and looking up its key gives its shared
entry. -/
theorem entries_partition
    (analyzed : (dataset.analyze stages arena options).answer = .ok effort) :
    let after := (dataset.analyze stages arena options).state
    let plan := after.plan
    let attributes := after.table.attributes
    let shared := plan.shared.map Prod.fst
    (plan.entries.map Prod.fst = attributes
        ∧ attributes = (after.table.rows.map AccessRow.attr).eraseDups ∧ attributes.Nodup)
      ∧ (plan.stageLocals.Sublist attributes ∧ shared.Sublist attributes)
      ∧ (plan.stageLocals.Disjoint shared ∧ (plan.stageLocals ++ shared).Perm attributes)
      ∧ (∀ attr placement, plan.placement? attr = some placement ↔
        (attr, placement) ∈ plan.entries)
      ∧ (∀ attr, (plan.isLocal attr != plan.isShared attr) = after.uses attr
        ∧ (after.uses attr = false → plan.isLocal attr = false ∧ plan.isShared attr = false))
      ∧ (∀ attr key, plan.key? attr = some key ↔ (attr, key) ∈ plan.shared)
      ∧ (IndexedPlan.ofEntries plan.entries).IsIndexed
      ∧ ∀ attr, (IndexedPlan.ofEntries plan.entries).placement? attr = plan.placement? attr := by
  intro after plan attributes shared
  have current : after.IsCurrent stages arena options := isCurrent_of_analyze_ok analyzed
  have coherent : after.table.Coherent := by
    obtain ⟨_, collected⟩ := current.collected
    rw [← current.table_eq]
    exact (reached_of_collect_ok collected).coherent
  have entriesEq : plan.entries.map Prod.fst = attributes :=
    Classification.map_fst_entries current.plan_eq
  have distinctAttributes : attributes.Nodup := coherent.nodup_attributes
  have distinct : (plan.entries.map Prod.fst).Nodup := entriesEq ▸ distinctAttributes
  have together := plan.stageLocals_append_shared_perm
  have usesEq (attr : Attribute) : after.uses attr = (plan.placement? attr).isSome := by
    have usedIff : after.uses attr = true ↔ attr ∈ attributes := by
      rw [← coherent.unionMode_ne_empty_iff, uses, unionMode, Mode.isEmpty, Bool.not_eq_true',
        beq_eq_false_iff_ne]
    rw [Bool.eq_iff_iff, usedIff, PlacementPlan.isSome_placement?_iff, entriesEq]
  refine ⟨⟨entriesEq, coherent.attributes_eq, distinctAttributes⟩, ⟨?_, ?_⟩, ⟨?_, ?_⟩, ?_, ?_, ?_,
    ?_, ?_⟩
  · exact entriesEq ▸ plan.stageLocals_sublist
  · exact entriesEq ▸ plan.shared_sublist
  · exact List.disjoint_of_nodup_append (together.nodup_iff.mpr distinct)
  · exact entriesEq ▸ together
  · exact fun attr placement => PlacementPlan.placement?_eq_some_iff distinct
  · intro attr
    rw [usesEq, Option.isSome_eq_false_iff, Option.isNone_iff_eq_none]
    exact plan.isLocal_bne_isShared attr
  · exact fun attr key => PlacementPlan.key?_eq_some_iff distinct
  · exact (IndexedPlan.ofEntries_spec distinct).2
  · exact IndexedPlan.placement?_ofEntries distinct

/-- Shared and local attributes alternate in the plan; the alpha is not used. -/
theorem entries_partition_alternating :
    let writer : Stage :=
      { kind := .init, usages := [.always (.write .size), .always (.write .color)] }
    let mover : Stage :=
      { kind := .update
        usages := [.whenUsed (.readWrite .velocity) .age, .always (.read .color)]
        expressions := { gpu := [⟨0⟩] } }
    let arena : ExpressionArena := ⟨#[⟨"age", true, [], [.read .age]⟩]⟩
    let stages (id : StageId) : Option Stage :=
      if id = ⟨0⟩ then some writer else if id = ⟨1⟩ then some mover else none
    let dataset : Dataset := { id := ⟨0⟩, kind := .particle, owners := [⟨0⟩, ⟨1⟩] }
    let after := (dataset.analyze stages arena {}).state
    (dataset.analyze stages arena {}).answer = .ok ⟨3, 5⟩
      ∧ after.plan.stageLocals = [.size, .age]
      ∧ after.plan.shared = [(.color, 4), (.velocity, 12)]
      ∧ after.plan.entries.map Prod.fst = [.size, .color, .age, .velocity]
      ∧ after.uses .alpha = false
      ∧ (IndexedPlan.ofEntries after.plan.entries).placement? .velocity = some (.shared 12)
      ∧ ∀ attr, (after.plan.isLocal attr != after.plan.isShared attr) = after.uses attr := by
  intro writer mover arena stages dataset after
  have analyzed : (dataset.analyze stages arena {}).answer = .ok ⟨3, 5⟩ := by decide
  obtain ⟨-, -, -, -, exclusive, -⟩ := entries_partition analyzed
  exact ⟨analyzed, by decide, by decide, by decide, by decide, by decide,
    fun attr => (exclusive attr).1⟩

end Dataset

end AttributeFlow
