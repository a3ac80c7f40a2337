import AttributeFlow.DatasetKind
import AttributeFlow.Identifier
import AttributeFlow.Mode
import AttributeFlow.Numeral
import AttributeFlow.OwnerKey
import AttributeFlow.StageKind

/-!
# Faults

Everything that an operation on an effect can refuse, one constructor for each
cause.  A cause belongs to a category, which callers may branch on, and has a
message, which is the category's heading followed by the cause in words.
-/

namespace AttributeFlow

/-- Why an operation was refused. -/
inductive Fault where
  | stageKindMask (mask : KindMask)
  | emptyFeed
  /-- The collection of a dataset was stopped by its limit of passes. -/
  | notConverged (dataset : DatasetId) (limit : Nat)
  | tooManyOwners (count : Nat)
  /-- A usage was merged that touches its attribute in no mode. -/
  | emptyAccess (attr : Attribute) (stage : StageId)
  /-- A collected cell holds no mode. -/
  | emptyCell (attr : Attribute) (stage : StageId)
  | notAnalyzed (dataset : DatasetId)
  | incompatibleOperation (operation : String) (kind : StageKind)
  | unknownStage (stage : StageId)
  | missingOwner (stage : StageId) (dataset : DatasetId)
  | notAnOwner (stage : StageId)
  | unknownDataset (dataset : DatasetId)
  | unknownExpression (expr : ExpressionId)
  | unusedAttribute (attr : Attribute) (dataset : DatasetId)
  | noLayout (kind : DatasetKind)
  | noLoadStore (kind : DatasetKind)
  | noDeclaration (mode : Mode)
  | noLoad (attr : Attribute)
  | noStore (attr : Attribute)
  deriving DecidableEq

namespace Fault

/-- What sort of mistake a fault reports. -/
inductive Category where
  | invalidConfiguration
  | invalidUsage
  | incompatibleOperation
  | notFound
  | notImplemented
  deriving DecidableEq

def category : Fault → Category
  | .stageKindMask _ | .emptyFeed | .notConverged _ _ | .tooManyOwners _ =>
      .invalidConfiguration
  | .emptyAccess _ _ | .emptyCell _ _ | .notAnalyzed _ => .invalidUsage
  | .incompatibleOperation _ _ => .incompatibleOperation
  | .unknownStage _ | .missingOwner _ _ | .notAnOwner _ | .unknownDataset _
  | .unknownExpression _ | .unusedAttribute _ _ => .notFound
  | .noLayout _ | .noLoadStore _ | .noDeclaration _ | .noLoad _ | .noStore _ =>
      .notImplemented

/-- The words that open every message of a category. -/
def Category.heading : Category → String
  | .invalidConfiguration => "Invalid configuration: "
  | .invalidUsage => "Invalid usage: "
  | .incompatibleOperation => ""
  | .notFound => "Not found: "
  | .notImplemented => "Not implemented: "

def detail : Fault → String
  | .stageKindMask mask =>
      "Illegal stage kind mask " ++ Numeral.binary 3 mask.bits.toNat
        ++ ": exactly one kind bit must be set"
  | .emptyFeed => "Data type None has no dataset"
  | .notConverged dataset limit =>
      "Attribute collection for data " ++ dataset.display ++ " did not converge in "
        ++ toString limit ++ " passes"
  | .tooManyOwners count =>
      "Too many stages use this data: " ++ toString count ++ " > " ++ toString OwnerKey.capacity
  | .emptyAccess attr stage =>
      "Cannot add attribute " ++ attr.display ++ " to stage " ++ stage.display
        ++ " without a mode"
  | .emptyCell attr stage =>
      "Attribute " ++ attr.display ++ " has an empty mode in stage " ++ stage.display
  | .notAnalyzed dataset =>
      "Data " ++ dataset.display ++ " must be analyzed before generating its layout"
  | .incompatibleOperation operation kind =>
      "Operation '" ++ operation ++ "' is not compatible with " ++ kind.name ++ " stages"
  | .unknownStage stage => "Stage " ++ stage.display
  | .missingOwner stage dataset =>
      "Stage " ++ stage.display ++ " owning data " ++ dataset.display
  | .notAnOwner stage => "Stage " ++ stage.display ++ " is not an owner"
  | .unknownDataset dataset => "Data " ++ dataset.display
  | .unknownExpression expr => "Expression " ++ expr.display
  | .unusedAttribute attr dataset =>
      "Attribute " ++ attr.display ++ " is not used by data " ++ dataset.display
  | .noLayout kind => "Attribute layout for " ++ kind.name ++ " data"
  | .noLoadStore kind => "Attribute load/store for " ++ kind.name ++ " data"
  | .noDeclaration mode => "attribute data declaration (" ++ mode.display ++ ")"
  | .noLoad attr => "load of attribute " ++ attr.display
  | .noStore attr => "store of attribute " ++ attr.display

def message (fault : Fault) : String :=
  fault.category.heading ++ fault.detail

end Fault

end AttributeFlow
