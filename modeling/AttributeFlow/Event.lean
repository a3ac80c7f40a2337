import AttributeFlow.Fault
import AttributeFlow.PlacementPlan

/-!
# Events

An analysis tells what it does in a list of events, in the order they happen.
An event is shown as a record with a level and named texts.
-/

namespace AttributeFlow

/-- Something that an operation on an effect reports while it runs. -/
inductive Event where
  | analysisStarted (dataset : DatasetId) (kind : DatasetKind)
  /-- An access was merged and changed the table; the mode is the merged one. -/
  | merged (stage : StageId) (access : Access)
  | passCompleted (dataset : DatasetId) (pass gathered rows : Nat) (changed : Bool)
  | classified (attr : Attribute) (key : OwnerKey) (placement : Placement)
  | analysisCompleted (passes merges attributes shared : Nat)
  | reported (report : String)
  | ownersBeyondKey (dataset : DatasetId) (owners : Nat)
  deriving DecidableEq

namespace Event

inductive Level where
  | trace
  | debug
  | info
  | warn
  deriving DecidableEq

def Level.name : Level → String
  | .trace => "TRACE"
  | .debug => "DEBUG"
  | .info => "INFO"
  | .warn => "WARN"

def level : Event → Level
  | .merged _ _ | .classified _ _ _ => .trace
  | .passCompleted _ _ _ _ _ | .analysisCompleted _ _ _ _ | .reported _ => .debug
  | .analysisStarted _ _ => .info
  | .ownersBeyondKey _ _ => .warn

def activity? : Event → Option String
  | .analysisStarted _ _ => some "analyze"
  | _ => none

/-- The texts of an event, by name in alphabetical order. -/
def fields : Event → List (String × String)
  | .analysisStarted dataset kind =>
      [("data", dataset.display), ("kind", kind.name)]
  | .merged stage access =>
      [("attribute", access.attr.display), ("message", "merged"),
        ("mode", access.mode.display), ("stage", stage.display)]
  | .passCompleted dataset pass gathered rows changed =>
      [("changed", toString changed), ("data", dataset.display),
        ("gathered", toString gathered), ("message", "attribute collection pass"),
        ("pass", toString pass), ("rows", toString rows)]
  | .classified attr key placement =>
      [("attribute", attr.display), ("key", toString key.toNat),
        ("message", "classified"), ("storage", placement.display)]
  | .analysisCompleted passes merges attributes shared =>
      [("attributes", toString attributes), ("merges", toString merges),
        ("message", "attribute analysis complete"), ("passes", toString passes),
        ("stored", toString shared)]
  | .reported report => [("message", "\n" ++ report)]
  | .ownersBeyondKey dataset owners =>
      [("data", dataset.display),
        ("message", "data has more owners than the storage key can encode"),
        ("owners", toString owners)]

end Event

end AttributeFlow
