import AttributeFlow.Fault

/-!
# The expression arena

Expressions are kept in an arena and named by their place in it.  The analysis
needs three facts about an expression: whether its value varies from element to
element, which expressions it is computed from, and which attributes it reads
itself.

The arena only grows.  An expression may be added once its inputs are present,
so an arena that was built by these operations has no cycles; an arena read from
a file may have any inputs.
-/

namespace AttributeFlow

structure Expression where
  label : String
  /-- Whether the value varies from element to element. -/
  varies : Bool
  inputs : List ExpressionId
  reads : List Access
  deriving DecidableEq

/-- An arena of expressions, each named by its place. -/
structure ExpressionArena where
  expressions : Array Expression := #[]
  deriving DecidableEq

namespace ExpressionArena

def size (arena : ExpressionArena) : Nat :=
  arena.expressions.size

def get? (arena : ExpressionArena) (expr : ExpressionId) : Option Expression :=
  arena.expressions[expr.index.toNat]?

/-- Whether the value of an expression varies from element to element; that of
an unknown expression does not. -/
def varies (arena : ExpressionArena) (expr : ExpressionId) : Bool :=
  (arena.get? expr).any Expression.varies

def inputs (arena : ExpressionArena) (expr : ExpressionId) : List ExpressionId :=
  (arena.get? expr).elim [] Expression.inputs

def reads (arena : ExpressionArena) (expr : ExpressionId) : List Access :=
  (arena.get? expr).elim [] Expression.reads

/-- Append an expression; the name is its place. -/
def push (arena : ExpressionArena) (expression : Expression) :
    ExpressionArena × ExpressionId :=
  (⟨arena.expressions.push expression⟩, ⟨UInt32.ofNat arena.size⟩)

def pushAccess (arena : ExpressionArena) (access : Access) :
    ExpressionArena × ExpressionId :=
  arena.push { label := access.attr.name, varies := true, inputs := [], reads := [access] }

def pushCurrent (arena : ExpressionArena) (attr : Attribute) :
    ExpressionArena × ExpressionId :=
  arena.pushAccess (.read attr)

def pushSource (arena : ExpressionArena) (attr : Attribute) :
    ExpressionArena × ExpressionId :=
  arena.pushAccess (.readSource attr)

def pushConstant (arena : ExpressionArena) (label : String) :
    ExpressionArena × ExpressionId :=
  arena.push { label, varies := false, inputs := [], reads := [] }

/-- Refuse a list of inputs that names an unknown expression. -/
def permit (arena : ExpressionArena) (inputs : List ExpressionId) : Except Fault Unit :=
  match inputs.find? fun input => (arena.get? input).isNone with
  | some input => .error (.unknownExpression input)
  | none => .ok ()

/-- Append an expression that is computed from others.  It varies from element to
element exactly if one of them does. -/
def pushComputed (arena : ExpressionArena) (label : String) (inputs : List ExpressionId) :
    Except Fault (ExpressionArena × ExpressionId) := do
  arena.permit inputs
  return arena.push { label, varies := inputs.any arena.varies, inputs, reads := [] }

/-- Append an expression as it is; its inputs must be present. -/
def insert (arena : ExpressionArena) (expression : Expression) :
    Except Fault (ExpressionArena × ExpressionId) := do
  arena.permit expression.inputs
  return arena.push expression

end ExpressionArena

end AttributeFlow
