import AttributeFlow.Dataset.Collection
import AttributeFlow.Proofs.AccessTableMerge

/-!
# Merging lists of accesses

Merging a list of accesses adds flags and takes none away.  Every flag of the
result was there before or comes from the list, and unless the merging is
stopped every access of the list is covered by the result.  The merging changes
nothing and is not stopped exactly if every access was covered to begin with.
-/

namespace AttributeFlow

namespace AccessTable

/-- An access touches its attribute in some mode, and the stage already touches
it with all flags of the mode. -/
def Covers (table : AccessTable) (stage : StageId) (access : Access) : Prop :=
  access.mode ≠ ∅ ∧ (table.modeAt access.attr stage).includes access.mode = true

/-- Every flag of one table is in another. -/
def Within (first second : AccessTable) : Prop :=
  ∀ attr stage flag, (first.modeAt attr stage).Has flag → (second.modeAt attr stage).Has flag

variable {table next : AccessTable} {stage : StageId} {access : Access} {changed : Bool}

theorem Within.refl (table : AccessTable) : table.Within table :=
  fun _ _ _ present => present

theorem Within.trans {first second third : AccessTable} (left : first.Within second)
    (right : second.Within third) : first.Within third :=
  fun attr stage flag present => right attr stage flag (left attr stage flag present)

theorem Covers.mono (covers : table.Covers stage access) (within : table.Within next) :
    next.Covers stage access := by
  refine ⟨covers.1, Mode.includes_iff.mpr ?_⟩
  intro flag present
  exact within _ _ flag (Mode.includes_iff.mp covers.2 flag present)

theorem Within.contains (coherent : table.Coherent) (nextCoherent : next.Coherent)
    (within : table.Within next) {attr : Attribute} (contained : table.contains attr = true) :
    next.contains attr = true := by
  obtain ⟨stage, present⟩ := coherent.contains_iff.mp contained
  obtain ⟨flag, flagSet⟩ := Mode.ne_empty_iff.mp present
  exact nextCoherent.contains_iff.mpr
    ⟨stage, Mode.ne_empty_of_has (within attr stage flag flagSet)⟩

theorem Covers.contains (coherent : table.Coherent) (covers : table.Covers stage access) :
    table.contains access.attr = true := by
  obtain ⟨flag, flagSet⟩ := Mode.ne_empty_iff.mp covers.1
  exact coherent.contains_iff.mpr
    ⟨stage, Mode.ne_empty_of_has (Mode.includes_iff.mp covers.2 flag flagSet)⟩

namespace Coherent

theorem within_of_merge (coherent : table.Coherent)
    (merged : table.merge stage access = .ok (next, changed)) : table.Within next := by
  intro attr other flag present
  rw [coherent.modeAt_merge merged]
  split
  · exact (Mode.has_union _ _ flag).mpr (Or.inl present)
  · exact present

theorem covers_of_merge (coherent : table.Coherent)
    (merged : table.merge stage access = .ok (next, changed)) : next.Covers stage access := by
  refine ⟨(coherent.cases_of_merge_ok merged).1, Mode.includes_iff.mpr ?_⟩
  intro flag present
  rw [coherent.modeAt_merge merged, if_pos ⟨rfl, rfl⟩]
  exact (Mode.has_union _ _ flag).mpr (Or.inr present)

theorem merge_of_covers (coherent : table.Coherent) (covers : table.Covers stage access) :
    table.merge stage access = .ok (table, false) := by
  rw [coherent.merge_eq, if_neg covers.1, if_pos covers.2]

theorem eq_of_merge_unchanged (coherent : table.Coherent)
    (merged : table.merge stage access = .ok (next, false)) :
    next = table ∧ table.Covers stage access := by
  rcases coherent.cases_of_merge_ok merged with ⟨present, ⟨included, same, _⟩ | ⟨_, _, impossible⟩⟩
  · exact ⟨same, present, included⟩
  · cases impossible

end Coherent

variable {accesses rest : List (StageId × Access)}

theorem mergeAll_cons_error {fault : Fault} (refused : table.merge stage access = .error fault) :
    table.mergeAll ((stage, access) :: rest) = { table, fault? := some fault } := by
  rw [mergeAll, refused]

theorem Coherent.mergeAll_cons_ok (coherent : table.Coherent)
    (merged : table.merge stage access = .ok (next, changed)) :
    table.mergeAll ((stage, access) :: rest) =
      { next.mergeAll rest with
        changes := (if changed then [(stage, access)] else []) ++ (next.mergeAll rest).changes } := by
  rw [mergeAll, merged]
  cases changed with
  | true => rfl
  | false =>
      rw [(coherent.eq_of_merge_unchanged merged).1]
      rfl

/-- Only an access without a mode stops a run. -/
theorem Coherent.emptyAccess_of_mergeAll (coherent : table.Coherent) {fault : Fault}
    (stopped : (table.mergeAll accesses).fault? = some fault) :
    ∃ stage access, (stage, access) ∈ accesses ∧ access.mode = ∅
      ∧ fault = .emptyAccess access.attr stage := by
  induction accesses generalizing table with
  | nil => cases stopped
  | cons first rest ih =>
      obtain ⟨stage, access⟩ := first
      cases result : table.merge stage access with
      | error mergeFault =>
          rw [mergeAll_cons_error result] at stopped
          cases stopped
          have empty := merge_eq_error_iff.mp result
          exact ⟨stage, access, List.mem_cons_self, empty.1, empty.2⟩
      | ok outcome =>
          rw [coherent.mergeAll_cons_ok result] at stopped
          obtain ⟨other, otherAccess, member, empty⟩ := ih (coherent.merge result) stopped
          exact ⟨other, otherAccess, List.mem_cons_of_mem _ member, empty⟩

theorem Reached.mergeAll (reached : table.Reached) (accesses : List (StageId × Access)) :
    (table.mergeAll accesses).table.Reached := by
  induction accesses generalizing table with
  | nil => exact reached
  | cons first rest ih =>
      obtain ⟨stage, access⟩ := first
      cases result : table.merge stage access with
      | error fault =>
          rw [mergeAll_cons_error result]
          exact reached
      | ok outcome =>
          rw [reached.coherent.mergeAll_cons_ok result]
          exact ih (reached.merge result)

/-- A run adds flags and takes none away. -/
theorem Coherent.within_mergeAll (coherent : table.Coherent)
    (accesses : List (StageId × Access)) : table.Within (table.mergeAll accesses).table := by
  induction accesses generalizing table with
  | nil => exact Within.refl table
  | cons first rest ih =>
      obtain ⟨stage, access⟩ := first
      cases result : table.merge stage access with
      | error fault =>
          rw [mergeAll_cons_error result]
          exact Within.refl table
      | ok outcome =>
          rw [coherent.mergeAll_cons_ok result]
          exact (coherent.within_of_merge result).trans (ih (coherent.merge result))

/-- Every flag of the result was there before or comes from the list. -/
theorem Coherent.origin_of_has_mergeAll (coherent : table.Coherent) {attr : Attribute}
    {other : StageId} {flag : Nat}
    (present : ((table.mergeAll accesses).table.modeAt attr other).Has flag) :
    (table.modeAt attr other).Has flag
      ∨ ∃ mode, (other, ⟨attr, mode⟩) ∈ accesses ∧ mode.Has flag := by
  induction accesses generalizing table with
  | nil => exact Or.inl present
  | cons first rest ih =>
      obtain ⟨stage, access⟩ := first
      cases result : table.merge stage access with
      | error fault =>
          rw [mergeAll_cons_error result] at present
          exact Or.inl present
      | ok outcome =>
          rw [coherent.mergeAll_cons_ok result] at present
          rcases ih (coherent.merge result) present with early | ⟨mode, member, modeHas⟩
          · rw [coherent.modeAt_merge result] at early
            split at early
            · next same =>
                obtain ⟨rfl, rfl⟩ := same
                rcases (Mode.has_union _ _ flag).mp early with before | added
                · exact Or.inl before
                · exact Or.inr ⟨access.mode, List.mem_cons_self, added⟩
            · exact Or.inl early
          · exact Or.inr ⟨mode, List.mem_cons_of_mem _ member, modeHas⟩

/-- A run that is not stopped covers every access of the list. -/
theorem Coherent.covers_of_mergeAll (coherent : table.Coherent)
    (finished : (table.mergeAll accesses).fault? = none) :
    ∀ stage access, (stage, access) ∈ accesses →
      (table.mergeAll accesses).table.Covers stage access := by
  induction accesses generalizing table with
  | nil => simp
  | cons first rest ih =>
      obtain ⟨stage, access⟩ := first
      cases result : table.merge stage access with
      | error fault =>
          rw [mergeAll_cons_error result] at finished
          cases finished
      | ok outcome =>
          have nextCoherent := coherent.merge result
          rw [coherent.mergeAll_cons_ok result] at finished ⊢
          intro other otherAccess member
          rcases List.mem_cons.mp member with same | later
          · cases same
            exact (coherent.covers_of_merge result).mono (nextCoherent.within_mergeAll rest)
          · exact ih nextCoherent finished other otherAccess later

/-- A run over accesses that are covered does nothing. -/
theorem Coherent.mergeAll_of_covers (coherent : table.Coherent)
    (covers : ∀ stage access, (stage, access) ∈ accesses → table.Covers stage access) :
    table.mergeAll accesses = { table } := by
  induction accesses with
  | nil => rfl
  | cons first rest ih =>
      obtain ⟨stage, access⟩ := first
      have merged := coherent.merge_of_covers (covers stage access List.mem_cons_self)
      rw [coherent.mergeAll_cons_ok merged,
        ih fun other otherAccess member => covers other otherAccess (List.mem_cons_of_mem _ member)]
      rfl

/-- A run without changes that is not stopped leaves the table as it was. -/
theorem mergeAll_eq_self (finished : (table.mergeAll accesses).fault? = none)
    (unchanged : (table.mergeAll accesses).changes = []) :
    table.mergeAll accesses = { table } := by
  induction accesses with
  | nil => rfl
  | cons first rest ih =>
      obtain ⟨stage, access⟩ := first
      cases result : table.merge stage access with
      | error fault =>
          rw [mergeAll_cons_error result] at finished
          cases finished
      | ok outcome =>
          obtain ⟨next, changed⟩ := outcome
          rw [mergeAll, result] at finished unchanged ⊢
          cases changed with
          | true => cases unchanged
          | false => exact ih finished unchanged

end AccessTable

end AttributeFlow
