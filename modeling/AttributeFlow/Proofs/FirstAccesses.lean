import AttributeFlow.Proofs.ExpressionDependence
import AttributeFlow.Proofs.WalkCursors
import Mathlib.Data.List.Infix

/-!
# How far to look for the next access

A walk may visit many expressions before it meets its next access, and with cycles it may
look for one forever.  The outlook of an expression tells the two apart as far as some first
levels of its walk show: an access is met there, or the walk ends without one, or it goes
deeper.

An outlook that is settled by some number of levels is settled by one level more than there are
expressions.  For an expression with an outlook that takes many levels to settle has an input
with one that takes just one level less, and so on, and these are different expressions.  Hence
the bound on visits loses no access: a search that gives up at the bound would go on forever.
-/

namespace AttributeFlow

variable {Item : Type} {ask other : Item → Option Bool} {items : List Item}

private theorem anyM_of_imp {answer : Bool}
    (implies : ∀ item ∈ items, ∀ answer, ask item = some answer → other item = some answer)
    (asked : items.anyM ask = some answer) : items.anyM other = some answer := by
  induction items with
  | nil => exact asked
  | cons item items ih =>
      rw [List.forall_mem_cons] at implies
      rw [List.anyM_cons] at asked ⊢
      cases first : ask item with
      | none =>
          rw [first] at asked
          cases asked
      | some found =>
          rw [first] at asked
          rw [implies.1 found first]
          cases found with
          | true => exact asked
          | false => exact ih implies.2 asked

private theorem anyM_eq_none_of_imp
    (implies : ∀ item ∈ items, ∀ answer, ask item = some answer → other item = some answer)
    (unasked : items.anyM other = none) : items.anyM ask = none := by
  cases asked : items.anyM ask with
  | none => rfl
  | some answer =>
      rw [anyM_of_imp implies asked] at unasked
      cases unasked

private theorem anyM_append (others : List Item) :
    (items ++ others).anyM ask =
      (items.anyM ask).bind fun found => if found then some true else others.anyM ask := by
  induction items with
  | nil => rfl
  | cons item items ih =>
      rw [List.cons_append, List.anyM_cons, List.anyM_cons, ih]
      cases ask item with
      | none => rfl
      | some found => cases found <;> rfl

namespace ExpressionArena

/-- What the first levels of the walk of an expression show: an access is met there, or the
walk ends without one, or it goes deeper. -/
def outlook (arena : ExpressionArena) : Nat → ExpressionId → Option Bool
  | 0, _ => none
  | levels + 1, expr =>
      if arena.varies expr then
        if arena.reads expr = [] then (arena.inputs expr).anyM (arena.outlook levels)
        else some true
      else some false

/-- The outlook of an expression takes a number of levels and one more to settle. -/
def SettlesOn (arena : ExpressionArena) (levels : Nat) (expr : ExpressionId) : Prop :=
  arena.outlook levels expr = none ∧ ∃ meets, arena.outlook (levels + 1) expr = some meets

variable {arena : ExpressionArena} {levels : Nat} {expr : ExpressionId} {meets : Bool}

theorem outlook_succ (settled : arena.outlook levels expr = some meets) :
    arena.outlook (levels + 1) expr = some meets := by
  induction levels generalizing expr meets with
  | zero => cases settled
  | succ levels ih =>
      rw [outlook] at settled ⊢
      split at settled
      · next varies =>
          rw [if_pos varies]
          split at settled
          · next silent =>
              rw [if_pos silent]
              exact anyM_of_imp (fun input _ _ inputSettled => ih inputSettled) settled
          · next reads =>
              rw [if_neg reads]
              exact settled
      · next uniform =>
          rw [if_neg uniform]
          exact settled

theorem outlook_of_le {more : Nat} (levelsLe : levels ≤ more)
    (settled : arena.outlook levels expr = some meets) :
    arena.outlook more expr = some meets := by
  induction levelsLe with
  | refl => exact settled
  | step _ ih => exact outlook_succ ih

/-- Where more levels are needed, the expression makes no access itself and leaves it to its
inputs. -/
theorem cases_of_outlook_none (unsettled : arena.outlook (levels + 1) expr = none) :
    arena.varies expr = true ∧ arena.reads expr = []
      ∧ (arena.inputs expr).anyM (arena.outlook levels) = none := by
  rw [outlook] at unsettled
  split at unsettled
  · next varies =>
      split at unsettled
      · next silent => exact ⟨varies, silent, unsettled⟩
      · cases unsettled
  · cases unsettled

theorem SettlesOn.levels_eq {other : Nat} (settles : arena.SettlesOn levels expr)
    (otherSettles : arena.SettlesOn other expr) : levels = other := by
  have notLt {first second : Nat} (settles : arena.SettlesOn first expr)
      (unsettled : arena.outlook second expr = none) : second ≤ first := by
    obtain ⟨meets, settled⟩ := settles.2
    by_contra later
    rw [outlook_of_le (Nat.lt_of_not_le later) settled] at unsettled
    cases unsettled
  exact Nat.le_antisymm (notLt otherSettles settles.1) (notLt settles otherSettles.1)

/-- If an outlook takes many levels to settle, that of some input takes one less. -/
theorem SettlesOn.exists_input (settles : arena.SettlesOn (levels + 1) expr) :
    arena.varies expr = true ∧ ∃ input, arena.SettlesOn levels input := by
  obtain ⟨unsettled, meets, settled⟩ := settles
  obtain ⟨varies, silent, inputsUnsettled⟩ := cases_of_outlook_none unsettled
  refine ⟨varies, ?_⟩
  by_contra noInput
  have sooner (input : ExpressionId) (answer : Bool)
      (settled : arena.outlook (levels + 1) input = some answer) :
      arena.outlook levels input = some answer := by
    cases before : arena.outlook levels input with
    | none => exact (noInput ⟨input, before, answer, settled⟩).elim
    | some earlier => exact (outlook_succ before).symm.trans settled
  rw [outlook, if_pos varies, if_pos silent] at settled
  rw [anyM_of_imp (fun input _ => sooner input) settled] at inputsUnsettled
  cases inputsUnsettled

private theorem SettlesOn.exists_path (settles : arena.SettlesOn levels expr) :
    ∃ path : List ExpressionId, path.length = levels ∧ path.Nodup
      ∧ ∀ other ∈ path, arena.varies other = true
        ∧ ∃ later ≤ levels, arena.SettlesOn later other := by
  induction levels generalizing expr with
  | zero => exact ⟨[], rfl, List.nodup_nil, by simp⟩
  | succ levels ih =>
      obtain ⟨varies, input, inputSettles⟩ := settles.exists_input
      obtain ⟨path, lengthEq, distinct, allVary⟩ := ih inputSettles
      refine ⟨expr :: path, by rw [List.length_cons, lengthEq],
        List.nodup_cons.mpr ⟨?_, distinct⟩, ?_⟩
      · intro again
        obtain ⟨_, later, laterLe, laterSettles⟩ := allVary expr again
        have levelsEq := settles.levels_eq laterSettles
        omega
      · intro other member
        rcases List.mem_cons.mp member with rfl | below
        · exact ⟨varies, _, Nat.le_refl _, settles⟩
        · obtain ⟨otherVaries, later, laterLe, laterSettles⟩ := allVary other below
          exact ⟨otherVaries, later, Nat.le_succ_of_le laterLe, laterSettles⟩

/-- An outlook that is settled at all is settled by one level more than there are
expressions. -/
theorem outlook_size (settled : arena.outlook levels expr = some meets) :
    arena.outlook (arena.size + 1) expr = some meets := by
  induction levels generalizing meets with
  | zero => cases settled
  | succ levels ih =>
      cases before : arena.outlook levels expr with
      | none =>
          obtain ⟨path, lengthEq, distinct, allVary⟩ :=
            SettlesOn.exists_path ⟨before, meets, settled⟩
          have pathShort :=
            length_le_size_of_nodup distinct fun other member => (allVary other member).1
          exact outlook_of_le (by omega) settled
      | some earlier =>
          rw [outlook_succ before] at settled
          cases settled
          exact ih before

/-- A search that comes to some expressions meets an access there within a number of visits, or
by then has left them behind without one. -/
def Resolves (arena : ExpressionArena) (visits : Nat) (exprs : List ExpressionId) (meets : Bool) :
    Prop :=
  ∀ (more : Nat) (found : Array Access) (stack : List ExpressionId),
    if meets then
      found.size < (Walk.seek arena (visits + more) ⟨found, exprs ++ stack⟩).found.size
    else
      Walk.seek arena (visits + more) ⟨found, exprs ++ stack⟩ =
        Walk.seek arena more ⟨found, stack⟩

private theorem exists_resolves_of_anyM {ask : ExpressionId → Option Bool} {bound : Nat}
    {exprs : List ExpressionId}
    (each : ∀ expr ∈ exprs, ∀ meets, ask expr = some meets →
      ∃ visits ≤ bound, arena.Resolves visits [expr] meets)
    (settled : exprs.anyM ask = some meets) :
    ∃ visits ≤ exprs.length * bound, arena.Resolves visits exprs meets := by
  induction exprs with
  | nil =>
      cases settled
      exact ⟨0, Nat.zero_le _, fun more found stack => by simp⟩
  | cons expr exprs ih =>
      rw [List.forall_mem_cons] at each
      rw [List.anyM_cons] at settled
      have boundEq : (expr :: exprs).length * bound = exprs.length * bound + bound := by
        rw [List.length_cons, Nat.succ_mul]
      cases first : ask expr with
      | none =>
          rw [first] at settled
          cases settled
      | some firstMeets =>
          rw [first] at settled
          obtain ⟨visits, visitsLe, resolves⟩ := each.1 firstMeets first
          cases firstMeets with
          | true =>
              cases settled
              exact ⟨visits, by omega, fun more found stack => resolves more found (exprs ++ stack)⟩
          | false =>
              obtain ⟨onward, onwardLe, onwardResolves⟩ := ih each.2 settled
              refine ⟨visits + onward, by omega, ?_⟩
              intro more found stack
              have leftBehind : Walk.seek arena (visits + onward + more)
                  ⟨found, expr :: exprs ++ stack⟩ =
                    Walk.seek arena (onward + more) ⟨found, exprs ++ stack⟩ := by
                rw [Nat.add_assoc]
                exact resolves (onward + more) found (exprs ++ stack)
              rw [leftBehind]
              exact onwardResolves more found stack

/-- A settled outlook is resolved within the visits on its levels. -/
theorem exists_resolves_of_outlook (settled : arena.outlook levels expr = some meets) :
    ∃ visits ≤ (arena.fanIn + 1) ^ levels, arena.Resolves visits [expr] meets := by
  induction levels generalizing expr meets with
  | zero => cases settled
  | succ levels ih =>
      have oneLe : 1 ≤ (arena.fanIn + 1) ^ (levels + 1) := Nat.one_le_pow _ _ (by omega)
      rw [outlook] at settled
      split at settled
      · next varies =>
          split at settled
          · next silent =>
              obtain ⟨visits, visitsLe, resolves⟩ :=
                exists_resolves_of_anyM (fun input _ _ inputSettled => ih inputSettled) settled
              have levelLe := one_add_mul_pow_le levels (arena.length_inputs_le expr)
              refine ⟨1 + visits, by omega, ?_⟩
              intro more found stack
              have entered : Walk.seek arena (1 + visits + more) ⟨found, [expr] ++ stack⟩ =
                  Walk.seek arena (visits + more) ⟨found, arena.inputs expr ++ stack⟩ := by
                rw [Nat.add_assoc, Nat.add_comm 1, Walk.seek]
                simp [Walk.visit, varies, silent]
              rw [entered]
              exact resolves more found stack
          · next reads =>
              cases settled
              refine ⟨1, oneLe, ?_⟩
              intro more found stack
              have grown : found.size < (found ++ arena.reads expr).size := by
                have readsPositive := List.length_pos_iff.mpr reads
                rw [← Array.length_toList, ← Array.length_toList, Array.toList_appendList,
                  List.length_append]
                omega
              rw [Nat.add_comm, Walk.seek]
              simp [Walk.visit, varies, grown]
      · next uniform =>
          cases settled
          refine ⟨1, oneLe, ?_⟩
          intro more found stack
          rw [Nat.add_comm, Walk.seek]
          simp [Walk.visit, uniform]

end ExpressionArena

namespace Walk

variable {arena : ExpressionArena}

/-- The walk goes on forever and meets no further access. -/
def IsSilent (arena : ExpressionArena) (walk : Walk) : Prop :=
  ∀ visits, ((visit arena)^[visits] walk).found = walk.found
    ∧ ((visit arena)^[visits] walk).stack ≠ []

theorem IsSilent.iterate {walk : Walk} (silent : walk.IsSilent arena) (visits : Nat) :
    ((visit arena)^[visits] walk).IsSilent arena := by
  intro more
  rw [← Function.iterate_add_apply, (silent visits).1]
  exact silent (more + visits)

/-- A visit uses up at most one level of an outlook that is not settled. -/
theorem exists_visit_eq_of_unsettled {levels : Nat} {stack : List ExpressionId}
    (unsettled : stack.anyM (arena.outlook (levels + 1)) = none) (found : Array Access) :
    ∃ rest, visit arena ⟨found, stack⟩ = ⟨found, rest⟩
      ∧ rest.anyM (arena.outlook levels) = none := by
  cases stack with
  | nil => cases unsettled
  | cons expr stack =>
      rw [List.anyM_cons] at unsettled
      cases first : arena.outlook (levels + 1) expr with
      | none =>
          obtain ⟨varies, silent, inputsUnsettled⟩ := ExpressionArena.cases_of_outlook_none first
          refine ⟨arena.inputs expr ++ stack, by simp [visit, varies, silent], ?_⟩
          rw [anyM_append, inputsUnsettled]
          rfl
      | some meets =>
          rw [first] at unsettled
          cases meets with
          | true => cases unsettled
          | false =>
              have stackUnsettled := anyM_eq_none_of_imp
                (fun _ _ _ => ExpressionArena.outlook_succ) unsettled
              rw [ExpressionArena.outlook] at first
              split at first
              · next varies =>
                  split at first
                  · next silent =>
                      refine ⟨arena.inputs expr ++ stack, by simp [visit, varies, silent], ?_⟩
                      rw [anyM_append, first]
                      exact stackUnsettled
                  · cases first
              · next uniform => exact ⟨stack, by simp [visit, uniform], stackUnsettled⟩

theorem exists_iterate_eq_of_unsettled {levels : Nat} (visits : Nat) {stack : List ExpressionId}
    (unsettled : stack.anyM (arena.outlook (levels + visits)) = none) (found : Array Access) :
    ∃ rest, (visit arena)^[visits] ⟨found, stack⟩ = ⟨found, rest⟩
      ∧ rest.anyM (arena.outlook levels) = none := by
  induction visits generalizing stack with
  | zero => exact ⟨stack, rfl, unsettled⟩
  | succ visits ih =>
      obtain ⟨next, visitEq, nextUnsettled⟩ := exists_visit_eq_of_unsettled unsettled found
      rw [Function.iterate_succ_apply, visitEq]
      exact ih nextUnsettled

/-- Where the outlook is not settled on the levels of the bound, there is nothing to come. -/
theorem isSilent_of_unsettled {stack : List ExpressionId}
    (unsettled : stack.anyM (arena.outlook (arena.size + 1)) = none) (found : Array Access) :
    IsSilent arena ⟨found, stack⟩ := by
  intro visits
  have unsettledDeep : stack.anyM (arena.outlook (1 + visits)) = none :=
    anyM_eq_none_of_imp (fun _ _ _ => ExpressionArena.outlook_size) unsettled
  obtain ⟨rest, iterateEq, restUnsettled⟩ :=
    exists_iterate_eq_of_unsettled visits unsettledDeep found
  rw [iterateEq]
  refine ⟨rfl, ?_⟩
  rintro rfl
  cases restUnsettled

/-- A search within the bound meets an access or comes to the end of the walk, unless the walk
goes on forever without an access. -/
theorem cases_of_seek (arena : ExpressionArena) (walk : Walk) :
    walk.found.size < (walk.seek arena (walk.stack.length * arena.visitBound)).found.size
      ∨ (walk.seek arena (walk.stack.length * arena.visitBound)).stack = []
      ∨ walk.IsSilent arena := by
  obtain ⟨found, stack⟩ := walk
  cases settled : stack.anyM (arena.outlook (arena.size + 1)) with
  | none => exact .inr (.inr (isSilent_of_unsettled settled found))
  | some meets =>
      obtain ⟨visits, visitsLe, resolves⟩ := ExpressionArena.exists_resolves_of_anyM
        (fun _ _ _ => ExpressionArena.exists_resolves_of_outlook) settled
      obtain ⟨more, boundEq⟩ := Nat.exists_eq_add_of_le visitsLe
      have resolved := resolves more found []
      rw [List.append_nil, ← boundEq] at resolved
      cases meets with
      | true => exact .inl resolved
      | false =>
          have ended : Walk.seek arena more ⟨found, []⟩ = ⟨found, []⟩ := by cases more <;> rfl
          refine .inr (.inl ?_)
          exact congrArg Walk.stack (Eq.trans resolved ended)

/-- A search makes visits and nothing else. -/
theorem exists_seek_eq_iterate (arena : ExpressionArena) (limit : Nat) (walk : Walk) :
    ∃ visits, walk.seek arena limit = (visit arena)^[visits] walk := by
  induction limit generalizing walk with
  | zero => exact ⟨0, rfl⟩
  | succ limit ih =>
      rw [seek]
      split
      · exact ⟨0, rfl⟩
      · dsimp only
        split
        · exact ⟨1, rfl⟩
        · obtain ⟨visits, seekEq⟩ := ih (walk.visit arena)
          exact ⟨visits + 1, seekEq⟩

end Walk

namespace ExpressionArena

theorem exists_continueTo_eq_iterate (arena : ExpressionArena) (wanted rounds : Nat)
    (walk : Walk) :
    ∃ visits, arena.continueTo wanted rounds walk = (Walk.visit arena)^[visits] walk := by
  induction rounds generalizing walk with
  | zero => exact ⟨0, rfl⟩
  | succ rounds ih =>
      rw [continueTo]
      split
      · exact ⟨0, rfl⟩
      · obtain ⟨first, seekEq⟩ :=
          Walk.exists_seek_eq_iterate arena (walk.stack.length * arena.visitBound) walk
        obtain ⟨second, continueEq⟩ := ih (walk.seek arena (walk.stack.length * arena.visitBound))
        rw [continueEq, seekEq, ← Function.iterate_add_apply]
        exact ⟨second + first, rfl⟩

/-- Continuing a walk for as many rounds as accesses are missing meets all of them, unless there
are no more to come. -/
theorem cases_of_continueTo (arena : ExpressionArena) {wanted rounds : Nat} {walk : Walk}
    (near : wanted ≤ walk.found.size + rounds) :
    wanted ≤ (arena.continueTo wanted rounds walk).found.size
      ∨ (arena.continueTo wanted rounds walk).stack = []
      ∨ (arena.continueTo wanted rounds walk).IsSilent arena := by
  induction rounds generalizing walk with
  | zero => exact .inl near
  | succ rounds ih =>
      rw [continueTo]
      split
      · next done =>
          rcases done with enough | ended
          · exact .inl enough
          · exact .inr (.inl (List.isEmpty_iff.mp ended))
      · rcases Walk.cases_of_seek arena walk with grown | ended | silent
        · exact ih (by omega)
        · obtain ⟨visits, continueEq⟩ := arena.exists_continueTo_eq_iterate wanted rounds
            (walk.seek arena (walk.stack.length * arena.visitBound))
          rw [continueEq, Walk.iterate_visit_of_stack_nil ended]
          exact .inr (.inl ended)
        · obtain ⟨first, seekEq⟩ :=
            Walk.exists_seek_eq_iterate arena (walk.stack.length * arena.visitBound) walk
          obtain ⟨second, continueEq⟩ := arena.exists_continueTo_eq_iterate wanted rounds
            (walk.seek arena (walk.stack.length * arena.visitBound))
          rw [continueEq, seekEq]
          exact .inr (.inr ((silent.iterate first).iterate second))

/-- The first accesses are met by a walk after some visits. -/
theorem exists_collectFirst_eq (arena : ExpressionArena) (count : Nat) (expr : ExpressionId) :
    ∃ visits, arena.collectFirst count expr =
      (Walk.after arena expr visits).found.toList.take count := by
  obtain ⟨visits, continueEq⟩ := arena.exists_continueTo_eq_iterate count count (.start expr)
  exact ⟨visits, by rw [collectFirst, continueEq, Walk.after]⟩

/-- Whatever a walk meets first is among the first accesses. -/
theorem take_prefix_collectFirst (arena : ExpressionArena) (count : Nat) (expr : ExpressionId)
    (visits : Nat) :
    (Walk.after arena expr visits).found.toList.take count <+: arena.collectFirst count expr := by
  obtain ⟨reached, continueEq⟩ := arena.exists_continueTo_eq_iterate count count (.start expr)
  have ends := arena.cases_of_continueTo (Nat.le_add_left count (Walk.start expr).found.size)
  rw [continueEq, ← Walk.after] at ends
  rw [collectFirst, continueEq, ← Walk.after]
  rcases Nat.le_total visits reached with sooner | later
  · obtain ⟨more, rfl⟩ := Nat.exists_eq_add_of_le sooner
    rw [Walk.after_add]
    exact List.IsPrefix.take (Walk.found_prefix_iterate arena more _) count
  · obtain ⟨more, rfl⟩ := Nat.exists_eq_add_of_le later
    have nothingNew : (Walk.after arena expr (reached + more)).found.toList.take count =
        (Walk.after arena expr reached).found.toList.take count := by
      rw [Walk.after_add]
      rcases ends with enough | ended | silent
      · obtain ⟨rest, foundEq⟩ :=
          Walk.found_prefix_iterate arena more (Walk.after arena expr reached)
        rw [← foundEq, List.take_append_of_le_length enough]
      · rw [Walk.iterate_visit_of_stack_nil ended]
      · rw [(silent more).1]
    exact nothingNew ▸ List.prefix_rfl

end ExpressionArena

end AttributeFlow
