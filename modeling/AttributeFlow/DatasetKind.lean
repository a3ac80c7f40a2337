/-!
# Kinds of datasets

A dataset holds particles, processed on the graphics device, or the payloads of
spawn events, processed on the host.  The kind decides which of a stage's
expressions belong to the dataset, and what a backend may do with its
attributes.  A stage states what it consumes and what it produces as a feed, and
a feed may be empty.
-/

namespace AttributeFlow

inductive Device where
  | cpu
  | gpu
  deriving DecidableEq

inductive DatasetKind where
  | particle
  | spawnEvent
  deriving DecidableEq

/-- What a backend may do with the attributes of a dataset. -/
structure Capabilities where
  layout : Bool
  loadStore : Bool
  deriving DecidableEq

namespace DatasetKind

def name : DatasetKind → String
  | .particle => "Particle"
  | .spawnEvent => "SpawnEvent"

def device : DatasetKind → Device
  | .particle => .gpu
  | .spawnEvent => .cpu

def capabilities : DatasetKind → Capabilities
  | .particle => ⟨true, true⟩
  | .spawnEvent => ⟨false, false⟩

end DatasetKind

/-- What a stage consumes or produces: the elements of a dataset, or nothing. -/
structure Feed where
  kind? : Option DatasetKind := none
  deriving DecidableEq

end AttributeFlow
