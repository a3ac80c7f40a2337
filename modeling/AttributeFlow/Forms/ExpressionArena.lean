import AttributeFlow.ExpressionArena
import AttributeFlow.Forms.Stage

/-!
# JSON forms of expressions

An arena is read as it was written: its expressions may have any inputs.
-/

namespace AttributeFlow

open JsonForm

instance : JsonForm Expression where
  toJson expression :=
    .record
      [("label", toJson expression.label), ("per_element", toJson expression.varies),
        ("parents", toJson expression.inputs), ("needed", toJson expression.reads)]
  ofJson? value := do
    let [label, varies, inputs, reads] ←
      value.fields? ["label", "per_element", "parents", "needed"] | none
    return {
      label := ← field? label
      varies := ← field? varies
      inputs := ← field? inputs
      reads := ← field? reads }

instance : JsonForm ExpressionArena where
  toJson arena := .record [("nodes", toJson arena.expressions.toList)]
  ofJson? value := do
    let [expressions] ← value.fields? ["nodes"] | none
    let expressions : List Expression ← field? expressions
    return { expressions := expressions.toArray }

end AttributeFlow
