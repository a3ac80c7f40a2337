import AttributeFlow.Json.Form
import AttributeFlow.Usage

/-!
# JSON forms of attributes and usages

A mode is a bare number, and all eight bits of it are kept.  A usage names its
condition as a variant.
-/

namespace AttributeFlow

open JsonForm

namespace ValueType

def fileName : ValueType → String
  | .float => "Float"
  | .float2 => "Float2"
  | .float3 => "Float3"
  | .float4 => "Float4"
  | .int32 => "Int32"
  | .uint32 => "Uint32"
  | .bool => "Bool"

end ValueType

instance : JsonForm ValueType :=
  .ofNames ValueType.all ValueType.fileName

instance : JsonForm Attribute where
  toJson attr := .record [("name", toJson attr.name), ("ty", toJson attr.valueType)]
  ofJson? value := do
    let [name, valueType] ← value.fields? ["name", "ty"] | none
    return { name := ← field? name, valueType := ← field? valueType }

instance : JsonForm Mode where
  toJson mode := toJson mode.bits
  ofJson? value := (ofJson? value).map Mode.mk

instance : JsonForm Access where
  toJson access :=
    .record [("attribute", toJson access.attr), ("mode", toJson access.mode)]
  ofJson? value := do
    let [attr, mode] ← value.fields? ["attribute", "mode"] | none
    return { attr := ← field? attr, mode := ← field? mode }

instance : JsonForm Usage where
  toJson
    | .always access => .record [("Always", toJson access)]
    | .whenUsed access trigger =>
        .record [("IfUsed",
          .record [("info", toJson access), ("trigger", toJson trigger)])]
  ofJson? value := do
    match ← value.variant? with
    | ("Always", content) => return .always (← ofJson? content)
    | ("IfUsed", content) =>
        let [access, trigger] ← content.fields? ["info", "trigger"] | none
        return .whenUsed (← field? access) (← field? trigger)
    | _ => none

end AttributeFlow
