/-!
# JSON tokens

The scanner reads a JSON text one character at a time.  What it carries from
one character to the next is a `Phase`: it stands between tokens, or it is
partway through a word, a number or a string literal.  A number ends at the
first character that cannot continue it, and that character is then read
between tokens, so every number is as long as possible.

A string literal is read to a text.  Two escapes that spell a surrogate pair
give one character; an escape that spells an unpaired half leaves the literal
without a text.
-/

namespace AttributeFlow

/-- A token of JSON. -/
inductive Token where
  | openObject
  | closeObject
  | openArray
  | closeArray
  | comma
  | colon
  | null
  | bool (value : Bool)
  | natural (value : Nat)
  | otherNumber
  | string (content : Option String)
  deriving DecidableEq

namespace Token

/-- Where the scanner stands inside a string literal. -/
inductive LiteralPhase where
  /-- Before a plain character, an escape or the closing quote. -/
  | plain
  /-- After a backslash. -/
  | escape
  /-- Inside a hexadecimal escape, with digits still to come and the value so far. -/
  | hex (missing : Nat) (value : Nat)

/-- A string literal partway through: the characters so far, latest first, which
are absent once an unpaired surrogate was met, and a high surrogate that waits
for its low half. -/
structure Literal where
  phase : LiteralPhase := .plain
  high : Option Nat := none
  content : Option (List Char) := some []

namespace Literal

/-- Add one character; a high surrogate that still waits stays unpaired. -/
def push (literal : Literal) (c : Char) : Literal :=
  { phase := .plain
    high := none
    content := if literal.high.isSome then none else literal.content.map (c :: ·) }

/-- Give up the text of the literal. -/
def spoil (literal : Literal) : Literal :=
  { literal with phase := .plain, high := none, content := none }

/-- Add the code unit of a hexadecimal escape. -/
def pushUnit (literal : Literal) (unit : Nat) : Literal :=
  if 0xDC00 ≤ unit ∧ unit ≤ 0xDFFF then
    match literal.high with
    | some high =>
        { phase := .plain
          high := none
          content := literal.content.map
            (Char.ofNat (0x10000 + (high - 0xD800) * 0x400 + (unit - 0xDC00)) :: ·) }
    | none => literal.spoil
  else if 0xD800 ≤ unit ∧ unit ≤ 0xDBFF then
    if literal.high.isSome then literal.spoil
    else { literal with phase := .plain, high := some unit }
  else literal.push (Char.ofNat unit)

/-- The text of a literal that has been closed. -/
def finish (literal : Literal) : Option String :=
  if literal.high.isSome then none
  else literal.content.map fun characters => String.ofList characters.reverse

end Literal

/-- The value of a hexadecimal digit of either case. -/
def hexValue? (c : Char) : Option Nat :=
  if '0' ≤ c ∧ c ≤ '9' then some (c.toNat - '0'.toNat)
  else if 'a' ≤ c ∧ c ≤ 'f' then some (c.toNat - 'a'.toNat + 10)
  else if 'A' ≤ c ∧ c ≤ 'F' then some (c.toNat - 'A'.toNat + 10)
  else none

/-- The character that a one-letter escape stands for. -/
def escaped? : Char → Option Char
  | '"' => some '"'
  | '\\' => some '\\'
  | '/' => some '/'
  | 'b' => some '\x08'
  | 'f' => some '\x0c'
  | 'n' => some '\n'
  | 'r' => some '\r'
  | 't' => some '\t'
  | _ => none

/-- What the scanner carries from one character to the next. -/
inductive Phase where
  /-- Between tokens. -/
  | between
  /-- Inside a word, with the characters still to come and the token it spells. -/
  | word (rest : List Char) (token : Token)
  | literal (part : Literal)
  | minus
  /-- After a leading zero, which no digit may follow. -/
  | zero (negative : Bool)
  | digits (negative : Bool) (value : Nat)
  | point
  | fraction
  | exponentMark
  | exponentSign
  | exponent

/-- The scanner: the tokens read so far, latest first, and its phase. -/
structure Scanner where
  tokens : List Token := []
  phase : Phase := .between

namespace Scanner

def emit (scanner : Scanner) (token : Token) : Scanner :=
  ⟨token :: scanner.tokens, .between⟩

def enter (scanner : Scanner) (phase : Phase) : Scanner :=
  { scanner with phase }

/-- Read a character between tokens. -/
def start? (scanner : Scanner) (c : Char) : Option Scanner :=
  match c with
  | ' ' | '\t' | '\n' | '\r' => some (scanner.enter .between)
  | '{' => some (scanner.emit .openObject)
  | '}' => some (scanner.emit .closeObject)
  | '[' => some (scanner.emit .openArray)
  | ']' => some (scanner.emit .closeArray)
  | ',' => some (scanner.emit .comma)
  | ':' => some (scanner.emit .colon)
  | '"' => some (scanner.enter (.literal {}))
  | 'n' => some (scanner.enter (.word ['u', 'l', 'l'] .null))
  | 't' => some (scanner.enter (.word ['r', 'u', 'e'] (.bool true)))
  | 'f' => some (scanner.enter (.word ['a', 'l', 's', 'e'] (.bool false)))
  | '-' => some (scanner.enter .minus)
  | '0' => some (scanner.enter (.zero false))
  | c =>
      if c.isDigit then some (scanner.enter (.digits false (c.toNat - '0'.toNat)))
      else none

/-- Read a character inside a string literal.  Control characters must be
escaped, and a hexadecimal escape has exactly four digits. -/
def continueLiteral? (scanner : Scanner) (part : Literal) (c : Char) : Option Scanner :=
  match part.phase with
  | .plain =>
      if c = '"' then some (scanner.emit (.string part.finish))
      else if c = '\\' then some (scanner.enter (.literal { part with phase := .escape }))
      else if c.toNat < 0x20 then none
      else some (scanner.enter (.literal (part.push c)))
  | .escape =>
      if c = 'u' then some (scanner.enter (.literal { part with phase := .hex 3 0 }))
      else (escaped? c).map fun meant => scanner.enter (.literal (part.push meant))
  | .hex missing value =>
      (hexValue? c).map fun digit =>
        let next := value * 16 + digit
        match missing with
        | 0 => scanner.enter (.literal (part.pushUnit next))
        | missing + 1 =>
            scanner.enter (.literal { part with phase := .hex missing next })

/-- The token of a whole number; a minus sign leaves the naturals. -/
def wholeNumber (negative : Bool) (value : Nat) : Token :=
  if negative then .otherNumber else .natural value

/-- Read one character; absent when no JSON text continues this way. -/
def step? (scanner : Scanner) (c : Char) : Option Scanner :=
  match scanner.phase with
  | .between => scanner.start? c
  | .word [] _ => none
  | .word [last] token => if c = last then some (scanner.emit token) else none
  | .word (next :: rest) token =>
      if c = next then some (scanner.enter (.word rest token)) else none
  | .literal part => scanner.continueLiteral? part c
  | .minus =>
      if c = '0' then some (scanner.enter (.zero true))
      else if c.isDigit then some (scanner.enter (.digits true (c.toNat - '0'.toNat)))
      else none
  | .zero negative =>
      if c.isDigit then none
      else if c = '.' then some (scanner.enter .point)
      else if c = 'e' ∨ c = 'E' then some (scanner.enter .exponentMark)
      else (scanner.emit (wholeNumber negative 0)).start? c
  | .digits negative value =>
      if c.isDigit then
        some (scanner.enter (.digits negative (value * 10 + (c.toNat - '0'.toNat))))
      else if c = '.' then some (scanner.enter .point)
      else if c = 'e' ∨ c = 'E' then some (scanner.enter .exponentMark)
      else (scanner.emit (wholeNumber negative value)).start? c
  | .point => if c.isDigit then some (scanner.enter .fraction) else none
  | .fraction =>
      if c.isDigit then some scanner
      else if c = 'e' ∨ c = 'E' then some (scanner.enter .exponentMark)
      else (scanner.emit .otherNumber).start? c
  | .exponentMark =>
      if c = '+' ∨ c = '-' then some (scanner.enter .exponentSign)
      else if c.isDigit then some (scanner.enter .exponent)
      else none
  | .exponentSign => if c.isDigit then some (scanner.enter .exponent) else none
  | .exponent =>
      if c.isDigit then some scanner
      else (scanner.emit .otherNumber).start? c

def run? (scanner : Scanner) : List Char → Option Scanner
  | [] => some scanner
  | c :: rest =>
      match scanner.step? c with
      | none => none
      | some next => next.run? rest

/-- The tokens of a text that ends here, first token first. -/
def finish? (scanner : Scanner) : Option (List Token) :=
  match scanner.phase with
  | .between => some scanner.tokens.reverse
  | .zero negative => some (scanner.emit (wholeNumber negative 0)).tokens.reverse
  | .digits negative value =>
      some (scanner.emit (wholeNumber negative value)).tokens.reverse
  | .fraction | .exponent => some (scanner.emit .otherNumber).tokens.reverse
  | _ => none

end Scanner

/-- The tokens of a text. -/
def scan? (characters : List Char) : Option (List Token) :=
  (Scanner.run? {} characters).bind Scanner.finish?

end Token

end AttributeFlow
