import AttributeFlow.Attribute
import AttributeFlow.OwnerKey

/-!
# Placement plans

A plan says for every attribute of a dataset where its current value lives:
within one stage only, or in storage that the stages share.  A shared attribute
has a key that names the owners that read and write it.
-/

namespace AttributeFlow

/-- Where the current value of an attribute lives. -/
inductive Placement where
  /-- The value is computed within one stage and never kept. -/
  | stageLocal
  /-- The value is kept in storage that the stages share. -/
  | shared (key : OwnerKey)
  deriving DecidableEq

namespace Placement

def display : Placement → String
  | .stageLocal => "Local"
  | .shared key => "Stored \x7b key: " ++ toString key.toNat ++ " \x7d"

def key? : Placement → Option OwnerKey
  | .stageLocal => none
  | .shared key => some key

end Placement

/-- Where the attributes of a dataset live, in the order they were first seen. -/
structure PlacementPlan where
  entries : List (Attribute × Placement) := []
  deriving DecidableEq

namespace PlacementPlan

def placement? (plan : PlacementPlan) (attr : Attribute) : Option Placement :=
  (plan.entries.find? fun (name, _) => name == attr).map Prod.snd

def isLocal (plan : PlacementPlan) (attr : Attribute) : Bool :=
  plan.placement? attr == some .stageLocal

def key? (plan : PlacementPlan) (attr : Attribute) : Option OwnerKey :=
  (plan.placement? attr).bind Placement.key?

def isShared (plan : PlacementPlan) (attr : Attribute) : Bool :=
  (plan.key? attr).isSome

def shared (plan : PlacementPlan) : List (Attribute × OwnerKey) :=
  plan.entries.filterMap fun (attr, placement) => placement.key?.map (attr, ·)

def stageLocals (plan : PlacementPlan) : List Attribute :=
  (plan.entries.filter fun (_, placement) => placement == .stageLocal).map Prod.fst

def size (plan : PlacementPlan) : Nat :=
  plan.entries.length

end PlacementPlan

end AttributeFlow
