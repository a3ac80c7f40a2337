import AttributeFlow.Proofs.WalkRecursion

/-!
# Walks that enter every expression

Whether an expression varies from element to element is decided once, when it is added, and a
walk does not enter one that does not vary.  In an arena of attributes, constants and what is
computed from them nothing is lost by it.  An expression varies exactly if it is computed, in any
number of steps, from an attribute, and so the part of a walk that is left out holds no access.

An expression that is added as it is brings its own flag and accesses.  Nothing is said about it
here.
-/

namespace AttributeFlow

/-- An expression that reads an attribute, now or as it was before the stage. -/
def Expression.IsAttribute (expression : Expression) : Prop :=
  ∃ attr, expression = .ofAccess (.read attr) ∨ expression = .ofAccess (.readSource attr)

theorem Expression.IsAttribute.varies {expression : Expression}
    (isAttribute : expression.IsAttribute) : expression.varies = true := by
  obtain ⟨attr, rfl | rfl⟩ := isAttribute <;> rfl

/-- Visit the next expression and enter it, whether or not it varies. -/
def Walk.visitAll (arena : ExpressionArena) (walk : Walk) : Walk :=
  match walk.stack with
  | [] => walk
  | expr :: rest =>
      { found := walk.found ++ arena.reads expr, stack := arena.inputs expr ++ rest }

namespace ExpressionArena

/-- An attribute is among the inputs of an expression, the inputs of these, and so on, or it is
the expression itself. -/
def ReachesAttribute (arena : ExpressionArena) (expr : ExpressionId) : Prop :=
  ∃ other expression, Relation.ReflTransGen arena.Feeds expr other
    ∧ arena.get? other = some expression ∧ expression.IsAttribute

/-- The expression is an attribute, or it makes no access itself and varies exactly if one of
its inputs does. -/
def VariesByInputs (arena : ExpressionArena) (expression : Expression) : Prop :=
  expression.IsAttribute
    ∨ expression.reads = [] ∧ expression.varies = expression.inputs.any arena.varies

/-- Inputs come first, and every flag follows from those of the inputs. -/
structure FlagsFollow (arena : ExpressionArena) : Prop where
  earlier : arena.InputsEarlier
  follows : ∀ expr expression, arena.get? expr = some expression → arena.VariesByInputs expression

variable {arena : ExpressionArena} {expr : ExpressionId}

/-- A further expression leaves the flags of those that are present as they are. -/
theorem varies_push (present : expr.index.toNat < arena.size) (expression : Expression) :
    varies ⟨arena.expressions.push expression⟩ expr = arena.varies expr := by
  rw [varies, varies, get?, get?, Array.getElem?_push_lt present,
    Array.getElem?_eq_getElem present]

theorem VariesByInputs.push {expression : Expression} (follows : arena.VariesByInputs expression)
    (present : ∀ input ∈ expression.inputs, input.index.toNat < arena.size)
    (further : Expression) : VariesByInputs ⟨arena.expressions.push further⟩ expression := by
  rcases follows with isAttribute | ⟨readsNil, variesEq⟩
  · exact .inl isAttribute
  · refine .inr ⟨readsNil, ?_⟩
    rw [variesEq, Bool.eq_iff_iff, List.any_eq_true, List.any_eq_true]
    apply exists_congr
    intro input
    apply and_congr_right
    intro member
    rw [varies_push (present input member)]

/-- What is added, other than as it is, varies by its inputs. -/
theorem variesByInputs_expression (arena : ExpressionArena) {addition : Addition}
    (notVerbatim : ∀ expression, addition ≠ .verbatim expression) :
    arena.VariesByInputs (addition.expression arena) := by
  cases addition with
  | current attr => exact .inl ⟨attr, .inl rfl⟩
  | source attr => exact .inl ⟨attr, .inr rfl⟩
  | constant label => exact .inr ⟨rfl, rfl⟩
  | computed label inputs => exact .inr ⟨rfl, rfl⟩
  | verbatim expression => exact absurd rfl (notVerbatim expression)

namespace FlagsFollow

theorem empty : FlagsFollow {} := by
  refine ⟨InputsEarlier.empty, ?_⟩
  intro expr expression found
  simp [get?] at found

theorem grow (follow : arena.FlagsFollow) {addition : Addition}
    (notVerbatim : ∀ expression, addition ≠ .verbatim expression) :
    (arena.grow addition).FlagsFollow := by
  refine ⟨follow.earlier.grow addition, ?_⟩
  rcases arena.cases_of_grow addition with same | ⟨present, grownEq⟩
  · rw [same]
    exact follow.follows
  · rw [grownEq]
    intro expr expression found
    rw [get?, Array.getElem?_push] at found
    split at found
    · cases found
      exact (arena.variesByInputs_expression notVerbatim).push present _
    · have before := follow.earlier expr.index.toNat expression found
      obtain ⟨placeLt, _⟩ := Array.getElem?_eq_some_iff.mp found
      exact (follow.follows expr expression found).push
        (fun input member => Nat.lt_trans (before input member) placeLt) _

theorem growAll (follow : arena.FlagsFollow) {additions : List Addition}
    (noVerbatim : ∀ expression, .verbatim expression ∉ additions) :
    (arena.growAll additions).FlagsFollow := by
  induction additions generalizing arena with
  | nil => exact follow
  | cons addition additions ih =>
      apply ih (follow.grow fun expression isVerbatim => noVerbatim expression ?_)
      · exact fun expression member => noVerbatim expression (List.mem_cons_of_mem addition member)
      · exact isVerbatim ▸ List.mem_cons_self

end FlagsFollow

theorem reachesAttribute_iff : arena.ReachesAttribute expr ↔
    (∃ expression, arena.get? expr = some expression ∧ expression.IsAttribute)
      ∨ ∃ input ∈ arena.inputs expr, arena.ReachesAttribute input := by
  constructor
  · rintro ⟨other, expression, path, found, isAttribute⟩
    rcases path.cases_head with rfl | ⟨input, feeds, onward⟩
    · exact .inl ⟨expression, found, isAttribute⟩
    · exact .inr ⟨input, feeds, other, expression, onward, found, isAttribute⟩
  · rintro (⟨expression, found, isAttribute⟩ | ⟨input, feeds, other, expression, onward, reached⟩)
    · exact ⟨expr, expression, .refl, found, isAttribute⟩
    · exact ⟨other, expression, .head feeds onward, reached⟩

namespace FlagsFollow

variable (follow : arena.FlagsFollow)

include follow

theorem varies_iff_inputs (expr : ExpressionId) : arena.varies expr = true ↔
    (∃ expression, arena.get? expr = some expression ∧ expression.IsAttribute)
      ∨ ∃ input ∈ arena.inputs expr, arena.varies input = true := by
  cases found : arena.get? expr with
  | none => simp [varies, inputs, found]
  | some expression =>
      have variesEq : arena.varies expr = expression.varies := by simp [varies, found]
      have inputsEq : arena.inputs expr = expression.inputs := by simp [inputs, found]
      rw [variesEq, inputsEq]
      rcases follow.follows expr expression found with isAttribute | ⟨readsNil, flagEq⟩
      · simp [isAttribute, isAttribute.varies]
      · have notAttribute : ¬ expression.IsAttribute := by
          rintro ⟨attr, rfl | rfl⟩ <;> cases readsNil
        simp [notAttribute, flagEq]

/-- An expression varies exactly if it is computed from an attribute. -/
theorem varies_iff (expr : ExpressionId) :
    arena.varies expr = true ↔ arena.ReachesAttribute expr := by
  induction place : expr.index.toNat using Nat.strong_induction_on generalizing expr with
  | _ place ih =>
      rw [follow.varies_iff_inputs, reachesAttribute_iff]
      have inputsIff (input : ExpressionId) (member : input ∈ arena.inputs expr) :
          arena.varies input = true ↔ arena.ReachesAttribute input :=
        ih _ (place ▸ follow.earlier.index_lt_of_feeds member) input rfl
      exact or_congr_right (exists_congr fun input => and_congr_right (inputsIff input))

end FlagsFollow

/-- The same expressions, each of which is entered by a walk. -/
def unpruned (arena : ExpressionArena) : ExpressionArena :=
  ⟨arena.expressions.map fun expression => { expression with varies := true }⟩

theorem get?_unpruned (arena : ExpressionArena) (expr : ExpressionId) :
    arena.unpruned.get? expr =
      (arena.get? expr).map fun expression => { expression with varies := true } := by
  rw [get?, get?, unpruned, Array.getElem?_map]

@[simp]
theorem inputs_unpruned (arena : ExpressionArena) : arena.unpruned.inputs = arena.inputs := by
  funext expr
  rw [inputs, inputs, get?_unpruned]
  cases arena.get? expr <;> rfl

@[simp]
theorem reads_unpruned (arena : ExpressionArena) : arena.unpruned.reads = arena.reads := by
  funext expr
  rw [reads, reads, get?_unpruned]
  cases arena.get? expr <;> rfl

@[simp]
theorem varies_unpruned (arena : ExpressionArena) (expr : ExpressionId) :
    arena.unpruned.varies expr = (arena.get? expr).isSome := by
  rw [varies, get?_unpruned]
  cases arena.get? expr <;> rfl

theorem Acyclic.unpruned (acyclic : arena.Acyclic) : arena.unpruned.Acyclic := by
  have feedsEq : arena.unpruned.Feeds = arena.Feeds := by
    funext expr input
    rw [Feeds, Feeds, inputs_unpruned]
  rwa [Acyclic, feedsEq]

theorem visitAll_eq (arena : ExpressionArena) :
    Walk.visitAll arena = Walk.visit arena.unpruned := by
  funext walk
  obtain ⟨found, stack⟩ := walk
  cases stack with
  | nil => rfl
  | cons expr stack =>
      cases known : arena.get? expr with
      | none => simp [Walk.visitAll, Walk.visit, reads, inputs, known]
      | some expression => simp [Walk.visitAll, Walk.visit, known]

theorem unfold_of_not_varies (uniform : arena.varies expr = false) (levels : Nat) :
    arena.unfold levels expr = [] := by
  cases levels <;> simp [unfold, uniform]

/-- An expression that does not vary makes no access and has no input that varies. -/
theorem FlagsFollow.of_not_varies (follow : arena.FlagsFollow)
    (uniform : arena.varies expr = false) :
    arena.reads expr = [] ∧ ∀ input ∈ arena.inputs expr, arena.varies input = false := by
  have noneVary : ¬ ∃ input ∈ arena.inputs expr, arena.varies input = true := by
    intro someVary
    have varies := (follow.varies_iff_inputs expr).mpr (.inr someVary)
    simp [uniform] at varies
  refine ⟨?_, by simpa using noneVary⟩
  cases found : arena.get? expr with
  | none => simp [reads, found]
  | some expression =>
      rcases follow.follows expr expression found with isAttribute | ⟨readsNil, _⟩
      · rw [varies, found, Option.any_some, isAttribute.varies] at uniform
        cases uniform
      · simpa [reads, found] using readsNil

/-- What a walk leaves out holds no access, on any number of levels. -/
theorem FlagsFollow.unfold_unpruned (follow : arena.FlagsFollow) (levels : Nat)
    (expr : ExpressionId) : arena.unpruned.unfold levels expr = arena.unfold levels expr := by
  induction levels generalizing expr with
  | zero => rfl
  | succ levels ih =>
      have inputsEq : (arena.inputs expr).flatMap (arena.unpruned.unfold levels) =
          (arena.inputs expr).flatMap (arena.unfold levels) :=
        List.flatMap_congr fun input _ => ih input
      rw [unfold, unfold, inputs_unpruned, reads_unpruned, inputsEq]
      cases uniform : arena.varies expr with
      | true =>
          have known : arena.unpruned.varies expr = true := by
            rw [varies_unpruned]
            exact Option.isSome_of_any uniform
          simp [known]
      | false =>
          obtain ⟨readsNil, inputsUniform⟩ := follow.of_not_varies uniform
          have nothingBelow : (arena.inputs expr).flatMap (arena.unfold levels) = [] :=
            List.flatMap_eq_nil_iff.mpr fun input member =>
              unfold_of_not_varies (inputsUniform input member) levels
          simp [readsNil, nothingBelow]

/-- A walk that enters every expression ends, and has met what walks collect. -/
theorem FlagsFollow.exists_iterate_visitAll_eq (follow : arena.FlagsFollow)
    (expr : ExpressionId) :
    ∃ visits,
      (Walk.visitAll arena)^[visits] (.start expr) = ⟨(arena.collect expr).toArray, []⟩ := by
  have acyclic := follow.earlier.acyclic
  have sizeEq : arena.unpruned.size = arena.size := by simp [size, unpruned]
  refine ⟨arena.unpruned.visitBound, ?_⟩
  rw [visitAll_eq, ← Walk.advance_eq_iterate, advance_start (acyclic.unpruned.endsIn expr),
    follow.unfold_unpruned, sizeEq, acyclic.collect_eq_unfold]

/-- In an arena of attributes, constants and what is computed from them, whether or not some of
these were refused, an expression varies from element to element exactly if an attribute is
reached from it.  The walk that does not enter an expression that does not vary, and the one that
enters all of them, both end and meet the same accesses in the same order. -/
theorem pruning_loses_nothing (additions : List Addition)
    (noVerbatim : ∀ expression, .verbatim expression ∉ additions) (expr : ExpressionId) :
    let arena := growAll {} additions
    (arena.varies expr = true ↔ arena.ReachesAttribute expr)
      ∧ (∃ steps, (WalkCursor.run arena expr steps).IsFinished
        ∧ (WalkCursor.run arena expr steps).handedOut = arena.collect expr)
      ∧ ∃ visits,
        (Walk.visitAll arena)^[visits] (.start expr) = ⟨(arena.collect expr).toArray, []⟩ := by
  intro arena
  have follow : arena.FlagsFollow := FlagsFollow.empty.growAll noVerbatim
  exact ⟨follow.varies_iff expr, follow.earlier.acyclic.exists_run_isFinished expr,
    follow.exists_iterate_visitAll_eq expr⟩

/-- What is computed twice from a scaled age meets the age on both paths.  What is computed from
constants alone reaches no attribute, and one with an unknown input was refused. -/
theorem pruning_loses_nothing_shared :
    let additions : List Addition :=
      [.current .age, .computed "unknown" [⟨7⟩], .constant "scale", .computed "square" [⟨1⟩, ⟨1⟩],
        .computed "scaled" [⟨0⟩, ⟨2⟩], .computed "energy" [⟨3⟩, ⟨3⟩]]
    let arena := growAll {} additions
    (∀ expression, .verbatim expression ∉ additions) ∧ arena.size = 5
      ∧ arena.ReachesAttribute ⟨4⟩ ∧ ¬ arena.ReachesAttribute ⟨2⟩
      ∧ ∃ visits,
        (Walk.visitAll arena)^[visits] (.start ⟨4⟩) = ⟨#[.read .age, .read .age], []⟩ := by
  intro additions arena
  have noVerbatim : ∀ expression, .verbatim expression ∉ additions := by simp [additions]
  have collectEq : arena.collect ⟨4⟩ = [.read .age, .read .age] := by decide
  have varying := pruning_loses_nothing additions noVerbatim ⟨4⟩
  have uniform := pruning_loses_nothing additions noVerbatim ⟨2⟩
  refine ⟨noVerbatim, by decide, varying.1.mp (by decide), ?_, ?_⟩
  · intro reached
    exact absurd (uniform.1.mpr reached) (by decide)
  · obtain ⟨visits, visitsEq⟩ := varying.2.2
    exact ⟨visits, by rw [visitsEq, collectEq]⟩

end ExpressionArena

end AttributeFlow
