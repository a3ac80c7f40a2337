import AttributeFlow.Json.Token
import AttributeFlow.Json.Value

/-!
# Reading JSON

A `Builder` takes the tokens of a text one by one and assembles the value they
spell.  It remembers the arrays and objects that are still open, innermost
first, and what may come next: a value, a member name, a colon, or whatever may
follow a value that is complete.  Reading accepts exactly one value with nothing
but blanks around it.
-/

namespace AttributeFlow

namespace Json

/-- An open array or object in which a value is being read, with the earlier
items or members, latest first. -/
inductive Frame where
  | item (before : List Json)
  | member (before : List (Option String × Json)) (name : Option String)

/-- What has been read so far and what may come next. -/
inductive Builder where
  | wantsValue (outer : List Frame)
  | openedArray (outer : List Frame)
  | openedObject (outer : List Frame)
  | wantsName (outer : List Frame) (before : List (Option String × Json))
  | wantsColon (outer : List Frame) (before : List (Option String × Json)) (name : Option String)
  | complete (outer : List Frame) (value : Json)

namespace Builder

/-- The first token of a value inside the given frames. -/
def open? (outer : List Frame) : Token → Option Builder
  | .null => some (.complete outer .null)
  | .bool value => some (.complete outer (.bool value))
  | .natural value => some (.complete outer (.natural value))
  | .otherNumber => some (.complete outer .otherNumber)
  | .string content => some (.complete outer (.string content))
  | .openArray => some (.openedArray outer)
  | .openObject => some (.openedObject outer)
  | _ => none

/-- Take one token. -/
def step? : Builder → Token → Option Builder
  | .wantsValue outer, token => open? outer token
  | .openedArray outer, .closeArray => some (.complete outer (.array []))
  | .openedArray outer, token => open? (.item [] :: outer) token
  | .openedObject outer, .closeObject => some (.complete outer (.object []))
  | .openedObject outer, .string name => some (.wantsColon outer [] name)
  | .wantsName outer before, .string name => some (.wantsColon outer before name)
  | .wantsColon outer before name, .colon => some (.wantsValue (.member before name :: outer))
  | .complete (.item before :: outer) value, .comma =>
      some (.wantsValue (.item (value :: before) :: outer))
  | .complete (.item before :: outer) value, .closeArray =>
      some (.complete outer (.array (value :: before).reverse))
  | .complete (.member before name :: outer) value, .comma =>
      some (.wantsName outer ((name, value) :: before))
  | .complete (.member before name :: outer) value, .closeObject =>
      some (.complete outer (.object ((name, value) :: before).reverse))
  | _, _ => none

/-- Take a run of tokens. -/
def run? (builder : Builder) : List Token → Option Builder
  | [] => some builder
  | token :: rest =>
      match builder.step? token with
      | none => none
      | some next => next.run? rest

/-- The value, once it is complete and nothing is open around it. -/
def finish? : Builder → Option Json
  | .complete [] value => some value
  | _ => none

end Builder

/-- The value that a list of tokens spells. -/
def ofTokens? (tokens : List Token) : Option Json :=
  (Builder.run? (.wantsValue []) tokens).bind Builder.finish?

/-- Read a text that holds one value. -/
def parse? (source : String) : Option Json :=
  (Token.scan? source.toList).bind ofTokens?

end Json

end AttributeFlow
