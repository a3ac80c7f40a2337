import AttributeFlow.ExpressionArena.Walk
import Mathlib.Logic.Function.Iterate

/-!
# Walks that hand out one access at a time

A cursor hands out the accesses of a walk one at a time.  It keeps what the last visit met and
was not asked for yet, and makes a further visit only when nothing of it is left.  Its stack
grows at the end: the inputs of an expression are put there in reverse, so that the first one
is the next to be visited.

What a cursor has handed out, together with what is pending, is what a walk has met after as
many visits.  So a statement about the walk after some visits is one about the cursor after
some steps, and the other way round.
-/

namespace AttributeFlow

structure WalkCursor where
  /-- The accesses handed out so far. -/
  handedOut : List Access := []
  /-- The number of expressions visited so far. -/
  visits : Nat := 0
  /-- The accesses met on the last visit that are still to be handed out. -/
  pending : List Access := []
  /-- The expressions still to visit, next one last. -/
  stack : Array ExpressionId
  deriving DecidableEq

namespace WalkCursor

def start (expr : ExpressionId) : WalkCursor :=
  { stack := #[expr] }

/-- Hand out a pending access, or without one visit the expression at the end of the stack.
Without either, the cursor is finished and stays as it is. -/
def step (arena : ExpressionArena) (cursor : WalkCursor) : WalkCursor :=
  match cursor.pending, cursor.stack.back? with
  | access :: pending, _ =>
      { cursor with handedOut := cursor.handedOut ++ [access], pending }
  | [], none => cursor
  | [], some expr =>
      if arena.varies expr then
        { cursor with
          visits := cursor.visits + 1
          pending := arena.reads expr
          stack := cursor.stack.pop ++ (arena.inputs expr).reverse }
      else { cursor with visits := cursor.visits + 1, stack := cursor.stack.pop }

/-- The cursor of an expression after some steps. -/
def run (arena : ExpressionArena) (expr : ExpressionId) (steps : Nat) : WalkCursor :=
  (step arena)^[steps] (start expr)

def IsFinished (cursor : WalkCursor) : Prop :=
  cursor.pending = [] ∧ cursor.stack = #[]

/-- The walk that has met what the cursor knows of. -/
def walk (cursor : WalkCursor) : Walk :=
  { found := (cursor.handedOut ++ cursor.pending).toArray, stack := cursor.stack.toList.reverse }

end WalkCursor

namespace Walk

variable {arena : ExpressionArena} {expr : ExpressionId}

/-- The walk of an expression after some visits. -/
def after (arena : ExpressionArena) (expr : ExpressionId) (visits : Nat) : Walk :=
  (visit arena)^[visits] (start expr)

theorem visit_of_stack_nil {walk : Walk} (ended : walk.stack = []) : walk.visit arena = walk := by
  rw [visit, ended]

theorem iterate_visit_of_stack_nil {walk : Walk} (ended : walk.stack = []) (visits : Nat) :
    (visit arena)^[visits] walk = walk :=
  Function.iterate_fixed (visit_of_stack_nil ended) visits

theorem advance_eq_iterate (visits : Nat) (walk : Walk) :
    walk.advance arena visits = (visit arena)^[visits] walk := by
  induction visits generalizing walk with
  | zero => rfl
  | succ visits ih =>
      rw [advance, Function.iterate_succ_apply]
      split
      · next ended =>
          have stackNil := List.isEmpty_iff.mp ended
          rw [visit_of_stack_nil stackNil, iterate_visit_of_stack_nil stackNil]
      · exact ih _

theorem after_succ (visits : Nat) :
    after arena expr (visits + 1) = (after arena expr visits).visit arena :=
  Function.iterate_succ_apply' _ _ _

theorem after_add (first second : Nat) :
    after arena expr (first + second) = (visit arena)^[second] (after arena expr first) := by
  rw [after, Nat.add_comm, Function.iterate_add_apply, ← after]

/-- What a walk has met stays where it is. -/
theorem found_prefix_iterate (arena : ExpressionArena) (visits : Nat) (walk : Walk) :
    walk.found.toList <+: ((visit arena)^[visits] walk).found.toList := by
  induction visits generalizing walk with
  | zero => exact List.prefix_rfl
  | succ visits ih =>
      have first : walk.found.toList <+: (walk.visit arena).found.toList := by
        rw [visit]
        split
        · exact List.prefix_rfl
        · split
          · simp
          · exact List.prefix_rfl
      rw [Function.iterate_succ_apply]
      exact first.trans (ih _)

/-- A walk that has ended has met whatever it ever meets. -/
theorem found_after_prefix_of_ended {visits : Nat} (ended : (after arena expr visits).stack = [])
    (other : Nat) :
    (after arena expr other).found.toList <+: (after arena expr visits).found.toList := by
  rcases Nat.le_total other visits with sooner | later
  · obtain ⟨more, rfl⟩ := Nat.exists_eq_add_of_le sooner
    rw [after_add]
    exact found_prefix_iterate arena more _
  · obtain ⟨more, rfl⟩ := Nat.exists_eq_add_of_le later
    have same : after arena expr (visits + more) = after arena expr visits := by
      rw [after_add, iterate_visit_of_stack_nil ended]
    exact same ▸ List.prefix_rfl

end Walk

namespace WalkCursor

variable {arena : ExpressionArena} {expr : ExpressionId} {cursor : WalkCursor}

/-- Without anything pending, a step is a visit. -/
theorem walk_step_of_pending_nil (arena : ExpressionArena) (pendingNil : cursor.pending = []) :
    (cursor.step arena).walk = cursor.walk.visit arena := by
  obtain ⟨handedOut, visits, pending, ⟨stack⟩⟩ := cursor
  cases pendingNil
  rcases List.eq_nil_or_concat stack with rfl | ⟨rest, expr, rfl⟩
  · rfl
  · cases varies : arena.varies expr with
    | true => simp [step, walk, Walk.visit, varies]
    | false => simp [step, walk, Walk.visit, varies]

/-- A step hands out what the walk has met already, or it is a visit of the walk.  At the end
it is neither. -/
theorem walk_step (cursor : WalkCursor) :
    ((cursor.step arena).walk = cursor.walk ∧ (cursor.step arena).visits = cursor.visits)
      ∨ ((cursor.step arena).walk = cursor.walk.visit arena
        ∧ (cursor.step arena).visits = cursor.visits + 1) := by
  obtain ⟨handedOut, visits, pending, ⟨stack⟩⟩ := cursor
  cases pending with
  | cons access pending =>
      left
      simp [step, walk]
  | nil =>
      rcases List.eq_nil_or_concat stack with rfl | ⟨rest, expr, rfl⟩
      · exact .inl ⟨rfl, rfl⟩
      · refine .inr ⟨walk_step_of_pending_nil arena rfl, ?_⟩
        cases varies : arena.varies expr with
        | true => simp [step, varies]
        | false => simp [step, varies]

/-- A cursor has met what the walk has met after as many visits. -/
theorem walk_run (arena : ExpressionArena) (expr : ExpressionId) (steps : Nat) :
    (run arena expr steps).walk = Walk.after arena expr (run arena expr steps).visits := by
  induction steps with
  | zero => rfl
  | succ steps ih =>
      rw [run, Function.iterate_succ_apply', ← run]
      rcases (run arena expr steps).walk_step with ⟨walkEq, visitsEq⟩ | ⟨walkEq, visitsEq⟩
      · rw [walkEq, visitsEq, ih]
      · rw [walkEq, visitsEq, ih, Walk.after_succ]

/-- Everything that is pending may be handed out, which the walk has met already. -/
theorem iterate_step_pending (cursor : WalkCursor) :
    (step arena)^[cursor.pending.length] cursor =
      { cursor with handedOut := cursor.handedOut ++ cursor.pending, pending := [] } := by
  obtain ⟨handedOut, visits, pending, stack⟩ := cursor
  induction pending generalizing handedOut with
  | nil => simp
  | cons access pending ih =>
      dsimp only at ih ⊢
      rw [List.length_cons, Function.iterate_succ_apply, step, ih]
      simp

/-- The walk after some visits is that of a cursor which has handed out all that it met. -/
theorem exists_run_walk_eq (arena : ExpressionArena) (expr : ExpressionId) (visits : Nat) :
    ∃ steps, (run arena expr steps).walk = Walk.after arena expr visits
      ∧ (run arena expr steps).pending = [] := by
  induction visits with
  | zero => exact ⟨0, rfl, rfl⟩
  | succ visits ih =>
      obtain ⟨steps, walkEq, pendingNil⟩ := ih
      have visited := walk_step_of_pending_nil arena pendingNil
      rw [Walk.after_succ, ← walkEq, ← visited]
      refine ⟨((run arena expr steps).step arena).pending.length + (steps + 1), ?_⟩
      rw [run, Function.iterate_add_apply, Function.iterate_succ_apply', ← run,
        iterate_step_pending]
      simp [walk]

end WalkCursor

end AttributeFlow
