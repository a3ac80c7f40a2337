import AttributeFlow.Json.Value

/-!
# Writing JSON

One writer serves the compact and the indented form.  A `Layout` says which
blanks stand before an item at a given depth and after the colon of a member;
nothing else differs.  An array or object without items is written without
blanks in both forms.

A text is written with as few escapes as possible: the quote, the backslash and
the control characters below the space.
-/

namespace AttributeFlow

namespace Json

/-- The blanks of a written form. -/
structure Layout where
  /-- What stands before an item, and before the closing bracket, at a depth. -/
  lineBreak : Nat → List Char
  /-- What stands between the colon and the value of a member. -/
  afterColon : List Char

namespace Layout

def compact : Layout :=
  ⟨fun _ => [], []⟩

/-- Every item on a line of its own, two spaces deeper than what holds it. -/
def indented : Layout :=
  ⟨fun depth => '\n' :: List.replicate (2 * depth) ' ', [' ']⟩

end Layout

def hexDigit (value : Nat) : Char :=
  Nat.digitChar value

/-- The spelling of one character inside a string literal. -/
def escape (c : Char) : List Char :=
  if c = '"' then ['\\', '"']
  else if c = '\\' then ['\\', '\\']
  else if c = '\x08' then ['\\', 'b']
  else if c = '\x0c' then ['\\', 'f']
  else if c = '\n' then ['\\', 'n']
  else if c = '\r' then ['\\', 'r']
  else if c = '\t' then ['\\', 't']
  else if c.toNat < 0x20 then
    ['\\', 'u', '0', '0', hexDigit (c.toNat / 16), hexDigit (c.toNat % 16)]
  else [c]

/-- The literal of a text; a literal without a text is an unpaired surrogate. -/
def writeText : Option String → List Char
  | some content => '"' :: content.toList.flatMap escape ++ ['"']
  | none => ['"', '\\', 'u', 'd', '8', '0', '0', '"']

mutual

/-- The spelling of a value whose first line stands at the given depth. -/
def write (layout : Layout) (depth : Nat) : Json → List Char
  | .null => ['n', 'u', 'l', 'l']
  | .bool true => ['t', 'r', 'u', 'e']
  | .bool false => ['f', 'a', 'l', 's', 'e']
  | .natural value => Nat.toDigits 10 value
  | .otherNumber => ['-', '0']
  | .string content => writeText content
  | .array [] => ['[', ']']
  | .array (item :: items) =>
      '[' :: layout.lineBreak (depth + 1) ++ (write layout (depth + 1) item
        ++ (writeItems layout (depth + 1) items ++ (layout.lineBreak depth ++ [']'])))
  | .object [] => ['{', '}']
  | .object (member :: members) =>
      '{' :: layout.lineBreak (depth + 1) ++ (writeMember layout (depth + 1) member
        ++ (writeMembers layout (depth + 1) members ++ (layout.lineBreak depth ++ ['}'])))

/-- The items after the first, each with the comma before it. -/
def writeItems (layout : Layout) (depth : Nat) : List Json → List Char
  | [] => []
  | item :: items =>
      ',' :: layout.lineBreak depth ++ (write layout depth item
        ++ writeItems layout depth items)

/-- A member: its name, a colon and its value. -/
def writeMember (layout : Layout) (depth : Nat) : Option String × Json → List Char
  | (name, value) =>
      writeText name ++ (':' :: layout.afterColon ++ write layout depth value)

/-- The members after the first, each with the comma before it. -/
def writeMembers (layout : Layout) (depth : Nat) :
    List (Option String × Json) → List Char
  | [] => []
  | member :: members =>
      ',' :: layout.lineBreak depth ++ (writeMember layout depth member
        ++ writeMembers layout depth members)

end

/-- The text of a value in a layout. -/
def render (layout : Layout) (value : Json) : String :=
  String.ofList (value.write layout 0)

/-- The text of a value without blanks. -/
def compress (value : Json) : String :=
  value.render .compact

/-- The text of a value with one item on each line. -/
def pretty (value : Json) : String :=
  value.render .indented

end Json

end AttributeFlow
