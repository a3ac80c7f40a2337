import AttributeFlow.ExpressionArena

/-!
# Walking an expression

The attributes that an expression depends on are met on a walk over its inputs.
The walk visits an expression before its inputs, and inputs from first to last.
It enters only expressions whose value varies from element to element: a value
that is the same for every element cannot depend on an attribute.  An expression
that is reached on several paths is visited on each of them.

A walk is a stack of expressions still to visit.  On an arena without cycles it
ends; on an arena read from a file it may not, and then only a first part of it
can be asked for.  Both requests are bounded by a number of visits that no
finite walk exceeds: a walk that enters an expression inside itself never ends,
so a finite one is a tree with at most as many levels as there are expressions.
-/

namespace AttributeFlow

/-- A walk under way: the accesses met so far, and the expressions still to
visit, next one first. -/
structure Walk where
  found : Array Access := #[]
  stack : List ExpressionId

namespace Walk

def start (expr : ExpressionId) : Walk :=
  { stack := [expr] }

def visit (arena : ExpressionArena) (walk : Walk) : Walk :=
  match walk.stack with
  | [] => walk
  | expr :: rest =>
      if arena.varies expr then
        { found := walk.found ++ arena.reads expr, stack := arena.inputs expr ++ rest }
      else
        { walk with stack := rest }

def advance (arena : ExpressionArena) : Nat → Walk → Walk
  | 0, walk => walk
  | visits + 1, walk =>
      if walk.stack.isEmpty then walk else advance arena visits (walk.visit arena)

/-- Visit up to a number of expressions, but none after one that makes an
access. -/
def seek (arena : ExpressionArena) : Nat → Walk → Walk
  | 0, walk => walk
  | visits + 1, walk =>
      if walk.stack.isEmpty then walk
      else
        let next := walk.visit arena
        if walk.found.size < next.found.size then next else seek arena visits next

end Walk

namespace ExpressionArena

def fanIn (arena : ExpressionArena) : Nat :=
  arena.expressions.foldl (fun most expression => max most expression.inputs.length) 0

/-- A number of visits that no finite walk from one expression exceeds: with the
level of the expressions that are never entered, it has one level more than
there are expressions. -/
def visitBound (arena : ExpressionArena) : Nat :=
  Nat.pow (arena.fanIn + 1) (arena.size + 1)

/-- The accesses that an expression depends on, in the order of the walk. -/
def collect (arena : ExpressionArena) (expr : ExpressionId) : List Access :=
  (Walk.advance arena arena.visitBound (.start expr)).found.toList

/-- Continue a walk until it has met a number of accesses, in up to the given
number of rounds; each round ends with a further access unless the walk ends. -/
def continueTo (arena : ExpressionArena) (wanted : Nat) : Nat → Walk → Walk
  | 0, walk => walk
  | rounds + 1, walk =>
      if wanted ≤ walk.found.size ∨ walk.stack.isEmpty then walk
      else
        continueTo arena wanted rounds
          (walk.seek arena (walk.stack.length * arena.visitBound))

/-- The first accesses that an expression depends on.  No expression is visited
after the last of them, so the rest of the walk may be endless. -/
def collectFirst (arena : ExpressionArena) (count : Nat) (expr : ExpressionId) :
    List Access :=
  (arena.continueTo count count (.start expr)).found.toList.take count

end ExpressionArena

end AttributeFlow
