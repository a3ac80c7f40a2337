import AttributeFlow.Proofs.ExpressionDependence
import AttributeFlow.Stage

/-!
# What an analysis sees of a stage

An analysis sees the kind of a stage, the sequence of usages that it declares, its
optional usages, and the sequence of accesses that its expressions on one device
collect.  It does not see how they come about: which operations are disabled, what
operations and expressions are called, or what a value that is the same for every
element is computed from.
-/

namespace AttributeFlow

namespace ExpressionArena

/-- The two arenas differ at most in labels, and in what values are computed from that
do not vary from element to element. -/
structure SameVarying (arena other : ExpressionArena) : Prop where
  varies_eq : ∀ expr, arena.varies expr = other.varies expr
  inputs_eq : ∀ expr, arena.varies expr = true → arena.inputs expr = other.inputs expr
  reads_eq : ∀ expr, arena.varies expr = true → arena.reads expr = other.reads expr

variable {arena other : ExpressionArena}

theorem SameVarying.unfold_eq (same : arena.SameVarying other) (levels : Nat)
    (expr : ExpressionId) : arena.unfold levels expr = other.unfold levels expr := by
  induction levels generalizing expr with
  | zero => rfl
  | succ levels ih =>
      rw [unfold, unfold, ← same.varies_eq]
      cases varies : arena.varies expr with
      | false => rfl
      | true =>
          have levelsEq : arena.unfold levels = other.unfold levels := funext ih
          rw [same.reads_eq expr varies, same.inputs_eq expr varies, levelsEq]

/-- Without cycles, expressions collect the same from arenas that agree where values
vary. -/
theorem SameVarying.collect_eq (same : arena.SameVarying other) (acyclic : arena.Acyclic)
    (otherAcyclic : other.Acyclic) (expr : ExpressionId) :
    arena.collect expr = other.collect expr :=
  acyclic.collect_congr otherAcyclic fun levels => same.unfold_eq levels expr

end ExpressionArena

/-- What an analysis of a dataset whose expressions are evaluated on one device sees of
a stage. -/
structure StageView where
  kind : StageKind
  declared : List Usage
  optional : List Usage
  /-- The accesses that the expressions on the device collect. -/
  collected : List Access
  deriving DecidableEq

namespace Stage

def view (arena : ExpressionArena) (device : Device) (stage : Stage) : StageView :=
  { kind := stage.kind
    declared := stage.declared
    optional := stage.optional
    collected := (stage.expressions.on device).flatMap arena.collect }

/-- The two stages differ at most in their feeds, their space, their expressions on the
other device, the operations that are disabled, the names and masks of the others, and
in which implicit operations are enabled. -/
structure SameParts (device : Device) (stage other : Stage) : Prop where
  kind_eq : stage.kind = other.kind
  usages_eq : stage.usages = other.usages
  optional_eq : stage.optional = other.optional
  expressions_eq : stage.expressions.on device = other.expressions.on device
  enabled_eq : (stage.operations.filter Operation.enabled).map Operation.usages =
    (other.operations.filter Operation.enabled).map Operation.usages
  implicit_eq : stage.implicit.map Operation.usages = other.implicit.map Operation.usages

variable {arena otherArena : ExpressionArena} {device : Device} {stage other : Stage}

theorem SameParts.declared_eq (same : SameParts device stage other) :
    stage.declared = other.declared := by
  rw [declared, declared, active, active, List.flatMap_append, List.flatMap_append,
    same.usages_eq]
  simp only [List.flatMap_def]
  rw [same.enabled_eq, same.implicit_eq]

/-- Stages with the same parts look the same, also on different arenas as long as
expressions collect the same from them. -/
theorem SameParts.view_eq (same : SameParts device stage other)
    (collectEq : ∀ expr, arena.collect expr = otherArena.collect expr) :
    stage.view arena device = other.view otherArena device := by
  rw [view, view, same.kind_eq, same.declared_eq, same.optional_eq, same.expressions_eq,
    funext collectEq]

/-- Disable the explicit operation at an index, if there is one. -/
def disableAt (stage : Stage) (index : Nat) : Stage :=
  stage.changeAt index fun operation => { operation with enabled := false }

private theorem filter_enabled_disable (operations : List Operation) (index : Nat) :
    (operations.modify index fun operation => { operation with enabled := false }).filter
        Operation.enabled =
      (operations.eraseIdx index).filter Operation.enabled := by
  induction operations generalizing index with
  | nil => rw [List.modify_nil, List.eraseIdx_nil]
  | cons operation operations ih =>
      cases index with
      | zero => simp
      | succ index => simp [List.filter_cons, ih]

/-- An operation that is disabled is as good as taken out. -/
theorem sameParts_disableAt_takeAt (device : Device) (stage : Stage) (index : Nat) :
    SameParts device (stage.disableAt index) (stage.takeAt index).1 where
  kind_eq := rfl
  usages_eq := rfl
  optional_eq := rfl
  expressions_eq := rfl
  enabled_eq := congrArg (List.map Operation.usages) (filter_enabled_disable stage.operations index)
  implicit_eq := rfl

end Stage

end AttributeFlow
