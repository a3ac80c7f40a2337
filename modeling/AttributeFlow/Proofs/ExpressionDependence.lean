import AttributeFlow.ExpressionArena.Walk
import Mathlib.Algebra.GroupWithZero.Nat
import Mathlib.Data.List.Nodup
import Mathlib.Data.List.Perm.Subperm
import Mathlib.Logic.Relation

/-!
# What an expression depends on

An expression whose value varies from element to element depends on the accesses
it makes itself and on those that its inputs depend on.  On an arena without
cycles a walk finds exactly these.

The walk of an expression is a tree.  Unless the walk comes to a loop of expressions
that it enters, no branch visits an expression twice.  The tree then has at most one
level more than the arena has expressions, and the bound on visits that ends a walk is
never what ends it.
-/

namespace AttributeFlow.ExpressionArena

/-- An expression is computed from an input. -/
def Feeds (arena : ExpressionArena) (expr input : ExpressionId) : Prop :=
  input ∈ arena.inputs expr

/-- No expression is computed from itself, directly or through others. -/
def Acyclic (arena : ExpressionArena) : Prop :=
  ∀ expr, ¬ Relation.TransGen arena.Feeds expr expr

/-- The walk of an expression goes on to an input. -/
def Enters (arena : ExpressionArena) (expr input : ExpressionId) : Prop :=
  arena.varies expr = true ∧ arena.Feeds expr input

/-- The walk of an expression comes to one that it enters again inside itself. -/
def ReachesLoop (arena : ExpressionArena) (expr : ExpressionId) : Prop :=
  ∃ other, Relation.ReflTransGen arena.Enters expr other
    ∧ Relation.TransGen arena.Enters other other

/-- The accesses that an expression depends on. -/
inductive DependsOn (arena : ExpressionArena) : ExpressionId → Access → Prop
  | reads {expr : ExpressionId} {access : Access} (varies : arena.varies expr = true)
      (member : access ∈ arena.reads expr) : DependsOn arena expr access
  | inputs {expr input : ExpressionId} {access : Access} (varies : arena.varies expr = true)
      (member : input ∈ arena.inputs expr) (depends : DependsOn arena input access) :
      DependsOn arena expr access

/-- The accesses on the first levels of the walk of an expression. -/
def unfold (arena : ExpressionArena) : Nat → ExpressionId → List Access
  | 0, _ => []
  | levels + 1, expr =>
      if arena.varies expr then
        arena.reads expr ++ (arena.inputs expr).flatMap (unfold arena levels)
      else []

/-- The walk of an expression has at most a number of levels. -/
def EndsIn (arena : ExpressionArena) : Nat → ExpressionId → Prop
  | 0, _ => False
  | levels + 1, expr =>
      arena.varies expr = true → ∀ input ∈ arena.inputs expr, EndsIn arena levels input

/-- The visits on the first levels of the walk of an expression. -/
def visits (arena : ExpressionArena) : Nat → ExpressionId → Nat
  | 0, _ => 0
  | levels + 1, expr =>
      1 + if arena.varies expr then ((arena.inputs expr).map (visits arena levels)).sum else 0

variable {arena : ExpressionArena}

theorem advance_of_stack_nil (count : Nat) (found : Array Access) :
    Walk.advance arena count ⟨found, []⟩ = ⟨found, []⟩ := by
  cases count <;> rfl

private theorem found_append (found : Array Access) (first second : List Access) :
    found ++ first ++ second = found ++ (first ++ second) := by
  apply Array.toList_inj.mp
  simp

private theorem advance_inputs {levels : Nat}
    (advanceOne : ∀ {expr : ExpressionId}, arena.EndsIn levels expr →
      ∀ count found stack,
        Walk.advance arena (arena.visits levels expr + count) ⟨found, expr :: stack⟩ =
          Walk.advance arena count ⟨found ++ arena.unfold levels expr, stack⟩)
    {inputs : List ExpressionId} (allEnd : ∀ input ∈ inputs, arena.EndsIn levels input)
    (count : Nat) (found : Array Access) (stack : List ExpressionId) :
    Walk.advance arena ((inputs.map (arena.visits levels)).sum + count)
        ⟨found, inputs ++ stack⟩ =
      Walk.advance arena count ⟨found ++ inputs.flatMap (arena.unfold levels), stack⟩ := by
  induction inputs generalizing found with
  | nil => simp
  | cons input inputs ih =>
      rw [List.map_cons, List.sum_cons, Nat.add_assoc, List.cons_append,
        advanceOne (allEnd input List.mem_cons_self),
        ih (fun other member => allEnd other (List.mem_cons_of_mem input member))]
      rw [List.flatMap_cons, found_append]

/-- Visiting an expression and all that comes from it meets its accesses and
leaves the rest of the stack. -/
theorem advance_expr {levels : Nat} {expr : ExpressionId} (ends : arena.EndsIn levels expr)
    (count : Nat) (found : Array Access) (stack : List ExpressionId) :
    Walk.advance arena (arena.visits levels expr + count) ⟨found, expr :: stack⟩ =
      Walk.advance arena count ⟨found ++ arena.unfold levels expr, stack⟩ := by
  induction levels generalizing expr count found stack with
  | zero => exact ends.elim
  | succ levels ih =>
      rw [visits, Nat.add_assoc, Nat.add_comm 1, Walk.advance]
      simp only [List.isEmpty_cons, Bool.false_eq_true, if_false, Walk.visit, unfold]
      cases varies : arena.varies expr with
      | true =>
          simp only [if_true]
          rw [advance_inputs (fun ends count found stack => ih ends count found stack)
            (ends varies), found_append]
      | false => simp

theorem length_inputs_le (arena : ExpressionArena) (expr : ExpressionId) :
    (arena.inputs expr).length ≤ arena.fanIn := by
  have atMost (expressions : List Expression) (start : Nat) :
      start ≤ expressions.foldl (fun most expression => max most expression.inputs.length) start
        ∧ ∀ expression ∈ expressions, expression.inputs.length ≤
          expressions.foldl (fun most expression => max most expression.inputs.length) start := by
    induction expressions generalizing start with
    | nil => simp
    | cons first expressions ih =>
        obtain ⟨startLe, restLe⟩ := ih (max start first.inputs.length)
        rw [List.foldl_cons]
        refine ⟨Nat.le_trans (Nat.le_max_left _ _) startLe, ?_⟩
        intro expression member
        rcases List.mem_cons.mp member with rfl | later
        · exact Nat.le_trans (Nat.le_max_right _ _) startLe
        · exact restLe expression later
  rw [inputs, fanIn, ← Array.foldl_toList]
  cases found : arena.get? expr with
  | none => simp
  | some expression =>
      exact (atMost _ 0).2 expression (Array.mem_toList_iff.mpr (Array.mem_of_getElem? found))

/-- A visit and those on some levels of its inputs are within the bound of one level more. -/
theorem one_add_mul_pow_le {count fan : Nat} (levels : Nat) (countLe : count ≤ fan) :
    1 + count * (fan + 1) ^ levels ≤ (fan + 1) ^ (levels + 1) := by
  have positive : 1 ≤ (fan + 1) ^ levels := Nat.one_le_pow _ _ (by omega)
  have inputsLe : count * (fan + 1) ^ levels ≤ fan * (fan + 1) ^ levels :=
    Nat.mul_le_mul_right _ countLe
  have powEq : (fan + 1) ^ (levels + 1) = fan * (fan + 1) ^ levels + (fan + 1) ^ levels := by
    rw [Nat.pow_succ, Nat.mul_succ, Nat.mul_comm]
  omega

theorem visits_le (arena : ExpressionArena) (levels : Nat) (expr : ExpressionId) :
    arena.visits levels expr ≤ (arena.fanIn + 1) ^ levels := by
  induction levels generalizing expr with
  | zero => simp [visits]
  | succ levels ih =>
      have sumLe (inputs : List ExpressionId) : (inputs.map (arena.visits levels)).sum ≤
          inputs.length * (arena.fanIn + 1) ^ levels := by
        induction inputs with
        | nil => simp
        | cons input inputs inputsLe =>
            have inputLe := ih input
            rw [List.map_cons, List.sum_cons, List.length_cons, Nat.succ_mul]
            omega
      have allLe := sumLe (arena.inputs expr)
      have levelLe := one_add_mul_pow_le levels (arena.length_inputs_le expr)
      rw [visits]
      split
      · omega
      · omega

/-- Beyond the levels of a walk there is nothing to find. -/
theorem EndsIn.unfold_add {levels : Nat} {expr : ExpressionId} (ends : arena.EndsIn levels expr)
    (more : Nat) : arena.unfold (levels + more) expr = arena.unfold levels expr := by
  induction levels generalizing expr with
  | zero => exact ends.elim
  | succ levels ih =>
      rw [Nat.add_right_comm, unfold, unfold]
      cases varies : arena.varies expr with
      | false => rfl
      | true =>
          have inputsEq : (arena.inputs expr).flatMap (arena.unfold (levels + more)) =
              (arena.inputs expr).flatMap (arena.unfold levels) :=
            List.flatMap_congr fun input member => ih (ends varies input member)
          rw [inputsEq]

/-- A walk that ends within the levels of the bound ends within the visits of the bound. -/
theorem advance_start {expr : ExpressionId} (ends : arena.EndsIn (arena.size + 1) expr) :
    Walk.advance arena arena.visitBound (.start expr) =
      ⟨(arena.unfold (arena.size + 1) expr).toArray, []⟩ := by
  obtain ⟨spare, boundEq⟩ := Nat.exists_eq_add_of_le (arena.visits_le (arena.size + 1) expr)
  rw [visitBound, Nat.pow_eq, boundEq, Walk.start, advance_expr ends, advance_of_stack_nil]
  simp

/-- A walk that ends within the levels of the bound is collected in full. -/
theorem collect_eq_unfold {expr : ExpressionId} (ends : arena.EndsIn (arena.size + 1) expr) :
    arena.collect expr = arena.unfold (arena.size + 1) expr := by
  rw [collect, advance_start ends]

theorem lt_size_of_varies {expr : ExpressionId} (varies : arena.varies expr = true) :
    expr.index.toNat < arena.size := by
  by_contra beyond
  have unknown : arena.get? expr = none := Array.getElem?_eq_none (Nat.le_of_not_lt beyond)
  rw [ExpressionArena.varies, unknown] at varies
  simp at varies

private theorem exists_path_of_not_endsIn {levels : Nat} {expr : ExpressionId}
    (continues : ¬ arena.EndsIn (levels + 1) expr) :
    ∃ path : List ExpressionId, path.length = levels ∧ (expr :: path).IsChain arena.Enters
      ∧ ∀ other ∈ expr :: path, arena.varies other = true := by
  induction levels generalizing expr with
  | zero =>
      simp only [EndsIn, Classical.not_imp] at continues
      exact ⟨[], rfl, List.IsChain.singleton expr, by simpa using continues.1⟩
  | succ levels ih =>
      rw [EndsIn, Classical.not_imp] at continues
      obtain ⟨varies, onward⟩ := continues
      push Not at onward
      obtain ⟨input, member, inputContinues⟩ := onward
      obtain ⟨path, lengthEq, chain, allVary⟩ := ih inputContinues
      refine ⟨input :: path, by simp [lengthEq], .cons_cons ⟨varies, member⟩ chain, ?_⟩
      intro other otherMem
      rcases List.mem_cons.mp otherMem with rfl | later
      · exact varies
      · exact allVary other later

/-- Different expressions that vary are no more than the arena has. -/
theorem length_le_size_of_nodup {path : List ExpressionId} (distinct : path.Nodup)
    (allVary : ∀ other ∈ path, arena.varies other = true) : path.length ≤ arena.size := by
  have placesDistinct : (path.map fun other => other.index.toNat).Nodup := by
    apply distinct.map
    rintro ⟨first⟩ ⟨second⟩ equal
    exact congrArg ExpressionId.mk (UInt32.toNat_inj.mp equal)
  have placesKnown : (path.map fun other => other.index.toNat) ⊆ List.range arena.size := by
    intro place member
    obtain ⟨other, otherMem, rfl⟩ := List.mem_map.mp member
    exact List.mem_range.mpr (lt_size_of_varies (allVary other otherMem))
  have atMost := (List.subperm_of_subset placesDistinct placesKnown).length_le
  rwa [List.length_map, List.length_range] at atMost

/-- A walk that comes to no loop has at most one level more than there are expressions. -/
theorem endsIn_of_not_reachesLoop {expr : ExpressionId} (noLoop : ¬ arena.ReachesLoop expr) :
    arena.EndsIn (arena.size + 1) expr := by
  -- A walk with more levels follows a path that is longer than the arena, and without
  -- loops no expression occurs twice on a path.
  by_contra continues
  obtain ⟨path, lengthEq, chain, allVary⟩ := exists_path_of_not_endsIn continues
  have ordered : (expr :: path).Pairwise (Relation.TransGen arena.Enters) :=
    List.isChain_iff_pairwise.mp (chain.imp fun _ _ enters => .single enters)
  have reached : ∀ other ∈ expr :: path, Relation.ReflTransGen arena.Enters expr other := by
    intro other member
    rcases List.mem_cons.mp member with rfl | later
    · exact .refl
    · exact (List.rel_of_pairwise_cons ordered later).to_reflTransGen
  have distinct : (expr :: path).Nodup := by
    apply ordered.imp_of_mem
    rintro first second member _ enters rfl
    exact noLoop ⟨first, reached first member, enters⟩
  have tooMany := length_le_size_of_nodup distinct allVary
  rw [List.length_cons] at tooMany
  omega

/-- A walk on a loop never has an end, on whatever number of levels. -/
theorem EndsIn.not_loop {levels : Nat} {expr : ExpressionId} (ends : arena.EndsIn levels expr) :
    ¬ Relation.TransGen arena.Enters expr expr := by
  -- The next expression on the loop is on a loop as well, and its walk has one level less.
  induction levels generalizing expr with
  | zero => exact ends.elim
  | succ levels ih =>
      intro loop
      obtain ⟨input, enters, onward⟩ := Relation.TransGen.head'_iff.mp loop
      exact ih (ends enters.1 input enters.2) (.tail' onward enters)

theorem EndsIn.not_reachesLoop {levels : Nat} {expr : ExpressionId}
    (ends : arena.EndsIn levels expr) : ¬ arena.ReachesLoop expr := by
  rintro ⟨other, path, loop⟩
  induction path using Relation.ReflTransGen.head_induction_on generalizing levels with
  | refl => exact ends.not_loop loop
  | head enters _ ih =>
      cases levels with
      | zero => exact ends.elim
      | succ levels => exact ih (ends enters.1 _ enters.2)

theorem Acyclic.not_reachesLoop (acyclic : arena.Acyclic) (expr : ExpressionId) :
    ¬ arena.ReachesLoop expr := by
  rintro ⟨other, _, loop⟩
  exact acyclic other (Relation.TransGen.mono (fun _ _ enters => enters.2) _ _ loop)

/-- Without cycles, the walk of an expression has at most one level more than
there are expressions. -/
theorem Acyclic.endsIn (acyclic : arena.Acyclic) (expr : ExpressionId) :
    arena.EndsIn (arena.size + 1) expr :=
  endsIn_of_not_reachesLoop (acyclic.not_reachesLoop expr)

/-- Where only what comes before is an input, there are no cycles. -/
theorem acyclic_of_feeds_earlier
    (earlier : ∀ expr input, arena.Feeds expr input → input.index.toNat < expr.index.toNat) :
    arena.Acyclic := by
  have path_earlier (first last : ExpressionId) (path : Relation.TransGen arena.Feeds first last) :
      last.index.toNat < first.index.toNat := by
    induction path with
    | single feeds => exact earlier _ _ feeds
    | tail _ feeds ih => exact Nat.lt_trans (earlier _ _ feeds) ih
  intro expr loop
  exact Nat.lt_irrefl _ (path_earlier expr expr loop)

theorem index_lt_of_feeds
    (earlier : ∀ place : Fin arena.expressions.size,
      ∀ input ∈ arena.expressions[place].inputs, input.index.toNat < place)
    {expr input : ExpressionId} (feeds : arena.Feeds expr input) :
    input.index.toNat < expr.index.toNat := by
  rw [Feeds, inputs] at feeds
  cases found : arena.get? expr with
  | none =>
      rw [found] at feeds
      cases feeds
  | some expression =>
      rw [found] at feeds
      obtain ⟨placeLt, atPlace⟩ := Array.getElem?_eq_some_iff.mp found
      have expressionEarlier := earlier ⟨expr.index.toNat, placeLt⟩ input
      rw [Fin.getElem_fin, atPlace] at expressionEarlier
      exact expressionEarlier feeds

/-- Where inputs come before what is computed from them, there are no cycles. -/
theorem acyclic_of_inputs_earlier
    (earlier : ∀ place : Fin arena.expressions.size,
      ∀ input ∈ arena.expressions[place].inputs, input.index.toNat < place) : arena.Acyclic :=
  acyclic_of_feeds_earlier fun _ _ => index_lt_of_feeds earlier

theorem dependsOn_of_mem_unfold {levels : Nat} {expr : ExpressionId} {access : Access}
    (member : access ∈ arena.unfold levels expr) : arena.DependsOn expr access := by
  induction levels generalizing expr with
  | zero => simp [unfold] at member
  | succ levels ih =>
      rw [unfold] at member
      split at member
      · next varies =>
          rcases List.mem_append.mp member with here | below
          · exact .reads varies here
          · obtain ⟨input, inputMem, inputHas⟩ := List.mem_flatMap.mp below
            exact .inputs varies inputMem (ih inputHas)
      · simp at member

theorem DependsOn.mem_unfold {expr : ExpressionId} {access : Access}
    (depends : arena.DependsOn expr access) {levels : Nat} (ends : arena.EndsIn levels expr) :
    access ∈ arena.unfold levels expr := by
  induction depends generalizing levels with
  | reads varies member =>
      cases levels with
      | zero => exact ends.elim
      | succ levels =>
          rw [unfold, if_pos varies]
          exact List.mem_append_left _ member
  | inputs varies member _ ih =>
      cases levels with
      | zero => exact ends.elim
      | succ levels =>
          rw [unfold, if_pos varies]
          exact List.mem_append_right _
            (List.mem_flatMap.mpr ⟨_, member, ih (ends varies _ member)⟩)

/-- Without cycles, expressions that unfold alike collect the same, whatever the sizes of
their arenas. -/
theorem Acyclic.collect_congr {other : ExpressionArena} (acyclic : arena.Acyclic)
    (otherAcyclic : other.Acyclic) {expr : ExpressionId}
    (sameUnfold : ∀ levels, arena.unfold levels expr = other.unfold levels expr) :
    arena.collect expr = other.collect expr := by
  have ends := acyclic.endsIn expr
  have otherEnds := otherAcyclic.endsIn expr
  calc arena.collect expr
      = arena.unfold (arena.size + 1) expr := collect_eq_unfold ends
    _ = arena.unfold (arena.size + 1 + (other.size + 1)) expr := (ends.unfold_add _).symm
    _ = other.unfold (other.size + 1 + (arena.size + 1)) expr := by
        rw [sameUnfold, Nat.add_comm]
    _ = other.unfold (other.size + 1) expr := otherEnds.unfold_add _
    _ = other.collect expr := (collect_eq_unfold otherEnds).symm

/-- Without cycles, a walk collects exactly what the expression depends on. -/
theorem Acyclic.mem_collect_iff (acyclic : arena.Acyclic) {expr : ExpressionId}
    {access : Access} : access ∈ arena.collect expr ↔ arena.DependsOn expr access := by
  have ends := acyclic.endsIn expr
  rw [collect_eq_unfold ends]
  exact ⟨dependsOn_of_mem_unfold, fun depends => depends.mem_unfold ends⟩

end AttributeFlow.ExpressionArena
