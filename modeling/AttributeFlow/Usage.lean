import AttributeFlow.Mode

/-!
# Declared usages

A usage declares that an attribute is touched.  A conditional usage holds only
once its trigger attribute is used somewhere in the same dataset; whether it is,
depends on the other usages, which is why usages are collected to a fixed point.
-/

namespace AttributeFlow

inductive Usage where
  | always (access : Access)
  /-- The access takes place once the trigger is used in the dataset. -/
  | whenUsed (access : Access) (trigger : Attribute)
  deriving DecidableEq

namespace Usage

/-- The declared access, whatever its condition. -/
def access : Usage → Access
  | .always access => access
  | .whenUsed access _ => access

def isUnconditional : Usage → Bool
  | .always _ => true
  | .whenUsed _ _ => false

/-- The access that takes place when exactly the given attributes are used. -/
def resolve? (isUsed : Attribute → Bool) : Usage → Option Access
  | .always access => some access
  | .whenUsed access trigger => if isUsed trigger then some access else none

end Usage

end AttributeFlow
