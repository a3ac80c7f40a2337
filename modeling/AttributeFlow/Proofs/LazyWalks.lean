import AttributeFlow.Proofs.FirstAccesses

/-!
# Walks that are not finished

An arena that was read from a file may have cycles, and the walk of an expression may then go
on forever.  Whatever a cursor hands out on such an arena it hands out in order: an expression
before its inputs, and inputs from first to last, as if the tree of the walk had been unfolded
before.

The tree may be infinite, but after some visits a cursor has seen no more than as many of its
levels.  On that many levels the unfolding begins with what has been handed out and what is
pending.  It goes on with the expressions on the stack, each unfolded on the levels that remain
below the one on which it stands.
-/

namespace AttributeFlow

namespace ExpressionArena

/-- The accesses of some expressions, unfolded from the levels on which they stand. -/
def unfoldFrom (arena : ExpressionArena) (levels : Nat) (entries : List (ExpressionId × Nat)) :
    List Access :=
  entries.flatMap fun entry => arena.unfold (levels - entry.2) entry.1

/-- After some visits, the unfolding consists of what the walk has met and of the expressions
on its stack, which stand on some of the levels visited. -/
def Unfolds (arena : ExpressionArena) (expr : ExpressionId) (visits : Nat) (walk : Walk) : Prop :=
  ∃ entries : List (ExpressionId × Nat), entries.map Prod.fst = walk.stack
    ∧ (∀ entry ∈ entries, entry.2 ≤ visits)
    ∧ ∀ levels, visits ≤ levels →
      arena.unfold levels expr = walk.found.toList ++ arena.unfoldFrom levels entries

variable {arena : ExpressionArena} {expr : ExpressionId} {visits : Nat} {walk : Walk}

/-- An expression above the last level unfolds to its accesses and to its inputs, one level
further down. -/
theorem unfoldFrom_cons {level levels : Nat} (levelLt : level < levels) (expr : ExpressionId)
    (entries : List (ExpressionId × Nat)) :
    arena.unfoldFrom levels ((expr, level) :: entries) =
      if arena.varies expr then
        arena.reads expr
          ++ arena.unfoldFrom levels ((arena.inputs expr).map (·, level + 1) ++ entries)
      else arena.unfoldFrom levels entries := by
  obtain ⟨below, levelsEq⟩ := Nat.exists_eq_add_of_lt levelLt
  have remaining : levels - level = below + 1 := by omega
  have remainingBelow : levels - (level + 1) = below := by omega
  simp only [unfoldFrom, List.flatMap_cons, List.flatMap_append, List.flatMap_map, remaining,
    remainingBelow, unfold]
  split
  · rw [List.append_assoc]
  · rfl

theorem unfolds_start (arena : ExpressionArena) (expr : ExpressionId) :
    arena.Unfolds expr 0 (.start expr) := by
  refine ⟨[(expr, 0)], rfl, by simp, ?_⟩
  intro levels _
  simp [unfoldFrom, Walk.start]

theorem Unfolds.visit (unfolds : arena.Unfolds expr visits walk) :
    arena.Unfolds expr (visits + 1) (walk.visit arena) := by
  obtain ⟨entries, stackEq, levelsLe, unfoldEq⟩ := unfolds
  obtain ⟨found, stack⟩ := walk
  cases entries with
  | nil =>
      cases stackEq
      exact ⟨[], rfl, by simp, fun levels visitsLe => unfoldEq levels (by omega)⟩
  | cons entry entries =>
      obtain ⟨next, level⟩ := entry
      cases stackEq
      rw [List.forall_mem_cons] at levelsLe
      have restLe : ∀ entry ∈ entries, entry.2 ≤ visits + 1 :=
        fun entry member => Nat.le_succ_of_le (levelsLe.2 entry member)
      cases varies : arena.varies next with
      | true =>
          refine ⟨(arena.inputs next).map (·, level + 1) ++ entries, ?_, ?_, ?_⟩
          · simp [Walk.visit, varies, Function.comp_def]
          · intro entry member
            rcases List.mem_append.mp member with new | old
            · obtain ⟨input, _, rfl⟩ := List.mem_map.mp new
              exact Nat.succ_le_succ levelsLe.1
            · exact restLe entry old
          · intro levels visitsLe
            rw [unfoldEq levels (by omega), unfoldFrom_cons (by omega), if_pos varies]
            simp [Walk.visit, varies]
      | false =>
          refine ⟨entries, by simp [Walk.visit, varies], restLe, ?_⟩
          intro levels visitsLe
          rw [unfoldEq levels (by omega), unfoldFrom_cons (by omega)]
          simp [Walk.visit, varies]

theorem unfolds_after (arena : ExpressionArena) (expr : ExpressionId) (visits : Nat) :
    arena.Unfolds expr visits (Walk.after arena expr visits) := by
  induction visits with
  | zero => exact arena.unfolds_start expr
  | succ visits ih =>
      rw [Walk.after_succ]
      exact ih.visit

/-- What a walk has met is where the unfolding begins. -/
theorem found_after_prefix_unfold (arena : ExpressionArena) (expr : ExpressionId) {levels : Nat}
    (visitsLe : visits ≤ levels) :
    (Walk.after arena expr visits).found.toList <+: arena.unfold levels expr := by
  obtain ⟨entries, _, _, unfoldEq⟩ := arena.unfolds_after expr visits
  rw [unfoldEq levels visitsLe]
  exact List.prefix_append _ _

/-- A walk that has ended has met the whole unfolding. -/
theorem found_after_eq_unfold {levels : Nat} (visitsLe : visits ≤ levels)
    (ended : (Walk.after arena expr visits).stack = []) :
    (Walk.after arena expr visits).found.toList = arena.unfold levels expr := by
  obtain ⟨entries, stackEq, _, unfoldEq⟩ := arena.unfolds_after expr visits
  rw [ended, List.map_eq_nil_iff] at stackEq
  rw [unfoldEq levels visitsLe, stackEq]
  simp [unfoldFrom]

end ExpressionArena

namespace WalkCursor

variable {arena : ExpressionArena} {expr : ExpressionId} {steps : Nat}

theorem found_run (arena : ExpressionArena) (expr : ExpressionId) (steps : Nat) :
    (Walk.after arena expr (run arena expr steps).visits).found.toList =
      (run arena expr steps).handedOut ++ (run arena expr steps).pending := by
  rw [← walk_run, walk]

theorem stack_run (arena : ExpressionArena) (expr : ExpressionId) (steps : Nat) :
    (Walk.after arena expr (run arena expr steps).visits).stack =
      (run arena expr steps).stack.toList.reverse := by
  rw [← walk_run, walk]

private theorem length_collectFirst_le (arena : ExpressionArena) (count : Nat)
    (expr : ExpressionId) : (arena.collectFirst count expr).length ≤ count := by
  rw [ExpressionArena.collectFirst]
  exact List.length_take_le _ _

/-- The first accesses are those that are handed out first. -/
theorem collectFirst_eq_take {count : Nat}
    (enough : count ≤ (run arena expr steps).handedOut.length) :
    arena.collectFirst count expr = (run arena expr steps).handedOut.take count := by
  have met := arena.take_prefix_collectFirst count expr (run arena expr steps).visits
  rw [found_run, List.take_append_of_le_length enough] at met
  apply (met.eq_of_length_le _).symm
  rw [List.length_take_of_le enough]
  exact length_collectFirst_le arena count expr

/-- A finished cursor has handed out whatever can be asked for. -/
theorem collectFirst_eq_take_of_isFinished (finished : (run arena expr steps).IsFinished)
    (count : Nat) :
    arena.collectFirst count expr = (run arena expr steps).handedOut.take count := by
  have found := found_run arena expr steps
  rw [finished.1, List.append_nil] at found
  have ended : (Walk.after arena expr (run arena expr steps).visits).stack = [] := by
    rw [stack_run, finished.2]
    rfl
  have met := arena.take_prefix_collectFirst count expr (run arena expr steps).visits
  obtain ⟨visits, firstEq⟩ := arena.exists_collectFirst_eq count expr
  have within := List.IsPrefix.take (Walk.found_after_prefix_of_ended ended visits) count
  rw [← firstEq] at within
  rw [found] at met within
  exact within.eq_of_length_le met.length_le

/-- The first accesses are handed out by the cursor. -/
theorem exists_collectFirst_eq_take (arena : ExpressionArena) (count : Nat)
    (expr : ExpressionId) :
    ∃ steps, arena.collectFirst count expr = (run arena expr steps).handedOut.take count := by
  obtain ⟨visits, firstEq⟩ := arena.exists_collectFirst_eq count expr
  obtain ⟨steps, walkEq, pendingNil⟩ := exists_run_walk_eq arena expr visits
  refine ⟨steps, ?_⟩
  rw [firstEq, ← walkEq, walk, pendingNil, List.append_nil]

/-- Whatever a cursor hands out on the first visits is where the unfolding on as many levels
begins, and it is the whole of it if the stack is empty by then, on any arena and whether or
not the expression is known.  So the accesses that are handed out first are the first ones of
the unfolding on any number of levels from there on, and asking for the first accesses gives
no others. -/
theorem handedOut_prefix_unfold (arena : ExpressionArena) (expr : ExpressionId)
    (steps levels : Nat) (within : (run arena expr steps).visits ≤ levels) :
    let cursor := run arena expr steps
    cursor.handedOut <+: arena.unfold levels expr
      ∧ (cursor.stack = #[] → cursor.handedOut ++ cursor.pending = arena.unfold levels expr)
      ∧ (∀ count, count ≤ cursor.handedOut.length ∨ cursor.IsFinished →
        arena.collectFirst count expr = (arena.unfold levels expr).take count)
      ∧ ∀ count, ∃ others,
        arena.collectFirst count expr = (run arena expr others).handedOut.take count := by
  intro cursor
  have begins : cursor.handedOut <+: arena.unfold levels expr := by
    have met := arena.found_after_prefix_unfold expr within
    rw [found_run] at met
    exact (List.prefix_append _ _).trans met
  have whole (stackNil : cursor.stack = #[]) :
      cursor.handedOut ++ cursor.pending = arena.unfold levels expr := by
    have ended : (Walk.after arena expr cursor.visits).stack = [] := by
      rw [stack_run, stackNil]
      rfl
    rw [← found_run]
    exact ExpressionArena.found_after_eq_unfold within ended
  refine ⟨begins, whole, ?_, fun count => exists_collectFirst_eq_take arena count expr⟩
  rintro count (enough | finished)
  · rw [collectFirst_eq_take enough]
    obtain ⟨rest, unfoldEq⟩ := begins
    rw [← unfoldEq, List.take_append_of_le_length enough]
  · rw [collectFirst_eq_take_of_isFinished finished, ← whole finished.2, finished.1,
      List.append_nil]

/-- An expression computed from an unknown one, a later one and itself.  Its walk goes on
forever, and has met three accesses after four visits. -/
theorem handedOut_prefix_unfold_cyclic :
    let arena : ExpressionArena :=
      ⟨#[⟨"feedback", true, [⟨7⟩, ⟨1⟩, ⟨0⟩], [.read .age]⟩,
        ⟨"size", true, [], [.readSource .size]⟩]⟩
    let met : List Access := [.read .age, .readSource .size, .read .age]
    (run arena ⟨0⟩ 7).visits ≤ 4 ∧ (run arena ⟨0⟩ 7).handedOut = met
      ∧ met <+: arena.unfold 4 ⟨0⟩
      ∧ arena.collectFirst 3 ⟨0⟩ = (arena.unfold 4 ⟨0⟩).take 3 := by
  intro arena met
  have within : (run arena ⟨0⟩ 7).visits ≤ 4 := by decide
  have metEq : (run arena ⟨0⟩ 7).handedOut = met := by decide
  have unfolded := handedOut_prefix_unfold arena ⟨0⟩ 7 4 within
  refine ⟨within, metEq, metEq ▸ unfolded.1, unfolded.2.2.1 3 (.inl ?_)⟩
  rw [metEq]
  decide

end WalkCursor

end AttributeFlow
