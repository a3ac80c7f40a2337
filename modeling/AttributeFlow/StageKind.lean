/-!
# Stage kinds

Every stage belongs to exactly one phase of an effect.  An operation names the
kinds it fits with a mask of one bit for each kind; a mask read from a file may
carry further bits, which fit nothing.
-/

namespace AttributeFlow

/-- The phase of an effect that a stage belongs to. -/
inductive StageKind where
  | init
  | update
  | output
  deriving DecidableEq

structure KindMask where
  bits : BitVec 8
  deriving DecidableEq

namespace StageKind

def mask : StageKind → KindMask
  | .init => ⟨1⟩
  | .update => ⟨2⟩
  | .output => ⟨4⟩

def name : StageKind → String
  | .init => "Initialize"
  | .update => "Update"
  | .output => "Output"

/-- All kinds, in the order an effect runs them. -/
def all : List StageKind :=
  [.init, .update, .output]

end StageKind

namespace KindMask

def contains (mask : KindMask) (kind : StageKind) : Bool :=
  mask.bits &&& kind.mask.bits != 0

/-- The kind whose bit is the only one set. -/
def single? (mask : KindMask) : Option StageKind :=
  StageKind.all.find? fun kind => kind.mask == mask

end KindMask

end AttributeFlow
