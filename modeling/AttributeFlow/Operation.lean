import AttributeFlow.StageKind
import AttributeFlow.Usage

/-!
# Operations

An operation is one unit of work inside a stage.  It declares the attributes it
touches and the kinds of stages it fits into.
-/

namespace AttributeFlow

/-- A unit of work inside a stage. -/
structure Operation where
  name : String
  compatible : KindMask
  enabled : Bool := true
  usages : List Usage := []
  deriving DecidableEq

namespace Operation

def declare (operation : Operation) (usage : Usage) : Operation :=
  { operation with usages := operation.usages ++ [usage] }

def fits (operation : Operation) (kind : StageKind) : Bool :=
  operation.compatible.contains kind

end Operation

end AttributeFlow
