/-!
# JSON values

A JSON value as the formats of this library see it.  Every natural number keeps
its value; the remaining numbers are told apart from nothing but the naturals,
because no field of a format holds one.  A string literal may spell half of a
surrogate pair, and then it stands for no text at all: its content is absent,
and only a reader that ignores the literal accepts it.
-/

namespace AttributeFlow

/-- A JSON value; object members keep their order and may share a name. -/
inductive Json where
  | null
  | bool (value : Bool)
  | natural (value : Nat)
  | otherNumber
  | string (content : Option String)
  | array (items : List Json)
  | object (members : List (Option String × Json))
  deriving Inhabited

namespace Json

/-- The string value that stands for a text. -/
def text (content : String) : Json :=
  .string (some content)

/-- An object whose member names are texts. -/
def record (members : List (String × Json)) : Json :=
  .object (members.map fun (name, value) => (some name, value))

end Json

end AttributeFlow
