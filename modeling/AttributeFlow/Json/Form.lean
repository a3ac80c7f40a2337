import AttributeFlow.Json.Value

/-!
# JSON forms

The way a type is written to a JSON value and read back.  Reading is strict
about what a form promises and lenient about the rest: the members of a record
may come in any order, a member that the record does not have is ignored
whatever it holds, and an array may stand for a record if it holds exactly the
record's fields in order.  A variant without content is a text, or an object
with one member that holds nothing.
-/

namespace AttributeFlow

namespace Json

/-- The values of the named fields, in the order of the names, with absence for
a field the object does not have.  An object is refused if a member name is no
text or if one of the fields occurs twice. -/
def objectFields? (names : List String) (members : List (Option String × Json)) :
    Option (List (Option Json)) := do
  let named ← members.mapM fun (key, value) => key.map (·, value)
  names.mapM fun name =>
    match named.filter fun (key, _) => key == name with
    | [] => some none
    | [(_, value)] => some (some value)
    | _ => none

/-- The values of the named fields of a record; an array must hold all of them. -/
def fields? (names : List String) : Json → Option (List (Option Json))
  | .object members => objectFields? names members
  | .array items => if items.length = names.length then some (items.map some) else none
  | _ => none

/-- The values of the named fields of a record whose fields all have defaults,
so that an array may end early. -/
def fieldsWithDefaults? (names : List String) : Json → Option (List (Option Json))
  | .object members => objectFields? names members
  | .array items =>
      if items.length ≤ names.length then
        some (items.map some ++ List.replicate (names.length - items.length) none)
      else none
  | _ => none

/-- The name and the content of a variant.  A text has no content; an object
names the variant by its only member. -/
def variant? : Json → Option (String × Json)
  | .string (some name) => some (name, .null)
  | .object [(some name, content)] => some (name, content)
  | _ => none

/-- The name of a variant that must have no content. -/
def unitVariant? (value : Json) : Option String :=
  match value.variant? with
  | some (name, .null) => some name
  | _ => none

/-- A natural number below a bound. -/
def naturalBelow? (bound : Nat) : Json → Option Nat
  | .natural value => if value < bound then some value else none
  | _ => none

end Json

/-- A type with a JSON form. -/
class JsonForm (α : Type) where
  /-- The value in its JSON form. -/
  toJson : α → Json
  /-- Read the JSON form; absent when the value is not of this form. -/
  ofJson? : Json → Option α

export JsonForm (toJson)

namespace JsonForm

/-- The form of a type whose values are written as names. -/
abbrev ofNames {α : Type} (values : List α) (name : α → String) : JsonForm α where
  toJson value := .text (name value)
  ofJson? value :=
    value.unitVariant?.bind fun found => values.find? fun value => name value == found

instance : JsonForm Bool where
  toJson := .bool
  ofJson?
    | .bool value => some value
    | _ => none

instance : JsonForm String where
  toJson := .text
  ofJson?
    | .string content => content
    | _ => none

instance : JsonForm UInt32 where
  toJson value := .natural value.toNat
  ofJson? value := (value.naturalBelow? UInt32.size).map UInt32.ofNat

instance : JsonForm UInt64 where
  toJson value := .natural value.toNat
  ofJson? value := (value.naturalBelow? UInt64.size).map UInt64.ofNat

/-- A word is written as the number it spells. -/
instance {width : Nat} : JsonForm (BitVec width) where
  toJson value := .natural value.toNat
  ofJson? value := (value.naturalBelow? (Nat.pow 2 width)).map (BitVec.ofNat width)

/-- An absent value is written as `null`. -/
instance {α : Type} [JsonForm α] : JsonForm (Option α) where
  toJson
    | some value => toJson value
    | none => .null
  ofJson?
    | .null => some none
    | value => (ofJson? value).map some

instance {α : Type} [JsonForm α] : JsonForm (List α) where
  toJson values := .array (values.map toJson)
  ofJson?
    | .array items => items.mapM ofJson?
    | _ => none

/-- Read a field that must be present. -/
def field? {α : Type} [JsonForm α] (field : Option Json) : Option α :=
  field.bind ofJson?

/-- Read a field that takes a default when it is absent. -/
def fieldOr? {α : Type} [JsonForm α] (default : α) : Option Json → Option α
  | some value => ofJson? value
  | none => some default

end JsonForm

end AttributeFlow
