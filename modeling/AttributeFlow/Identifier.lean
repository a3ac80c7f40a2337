/-!
# Identifiers

Stages, datasets and expressions refer to each other by number.
-/

namespace AttributeFlow

structure StageId where
  index : UInt32
  deriving DecidableEq

def StageId.display (stage : StageId) : String :=
  toString stage.index

structure DatasetId where
  index : UInt32
  deriving DecidableEq

def DatasetId.display (dataset : DatasetId) : String :=
  toString dataset.index

structure ExpressionId where
  index : UInt32
  deriving DecidableEq

def ExpressionId.display (expr : ExpressionId) : String :=
  "e" ++ toString expr.index

end AttributeFlow
