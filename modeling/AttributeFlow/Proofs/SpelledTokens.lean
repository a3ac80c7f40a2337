import AttributeFlow.Json.Token
import AttributeFlow.Json.Writer

/-!
# Spelled tokens

A text spells some tokens if a scanner that stands between tokens reads them off the
text and stands between tokens again, whatever it has read before.  What follows
matters only to a number, which goes on as long as it can; so a text may stand behind
another one if its first character cannot continue a number.

Numbers and texts are spelled as they are written.
-/

namespace AttributeFlow

namespace Token

/-- The characters that may stand between tokens. -/
def IsBlank (c : Char) : Prop :=
  c ∈ [' ', '\t', '\n', '\r']

def continuesNumber (c : Char) : Bool :=
  c.isDigit || c == '.' || c == 'e' || c == 'E'

/-- The text may stand behind a number. -/
def Delimited (characters : List Char) : Prop :=
  ∀ c ∈ characters.head?, continuesNumber c = false

/-- The tokens of the text that a scanner goes on with. -/
def Scanner.read? (scanner : Scanner) (characters : List Char) : Option (List Token) :=
  (scanner.run? characters).bind finish?

/-- The characters are read as the tokens, whatever stands before and behind them. -/
def Spells (characters : List Char) (tokens : List Token) : Prop :=
  ∀ before rest, Delimited rest →
    Scanner.read? ⟨before, .between⟩ (characters ++ rest) =
      Scanner.read? ⟨tokens.reverse ++ before, .between⟩ rest

variable {characters first second rest : List Char} {tokens firstTokens secondTokens : List Token}
  {before : List Token} {c : Char} {token : Token}

namespace Delimited

theorem nil : Delimited [] := by
  rintro c ⟨⟩

theorem cons (ends : continuesNumber c = false) : Delimited (c :: characters) := by
  rintro _ ⟨⟩
  exact ends

theorem append (delimited : Delimited first) (behind : Delimited second) :
    Delimited (first ++ second) := by
  cases first with
  | nil => exact behind
  | cons c first => exact delimited

theorem of_blanks (areBlank : ∀ c ∈ characters, IsBlank c) : Delimited characters := by
  intro c isFirst
  have blank := areBlank c (List.mem_of_mem_head? isFirst)
  simp only [IsBlank, List.mem_cons, List.not_mem_nil, or_false] at blank
  rcases blank with rfl | rfl | rfl | rfl <;> rfl

end Delimited

namespace Scanner

theorem read?_cons {scanner next : Scanner} (stepped : scanner.step? c = some next)
    (rest : List Char) : scanner.read? (c :: rest) = next.read? rest := by
  rw [read?, run?, stepped, read?]

/-- Between tokens a character starts something new. -/
theorem read?_between {next : Scanner} (started : start? ⟨before, .between⟩ c = some next)
    (rest : List Char) : read? ⟨before, .between⟩ (c :: rest) = next.read? rest := by
  have stepped : step? ⟨before, .between⟩ c = some next := started
  exact read?_cons stepped rest

theorem start?_of_isBlank (blank : IsBlank c) :
    start? ⟨before, .between⟩ c = some ⟨before, .between⟩ := by
  simp only [IsBlank, List.mem_cons, List.not_mem_nil, or_false] at blank
  rcases blank with rfl | rfl | rfl | rfl <;> rfl

theorem start?_digit (scanner : Scanner) (isDigit : c.isDigit = true) (notZero : c ≠ '0') :
    scanner.start? c = some (scanner.enter (.digits false (c.toNat - '0'.toNat))) := by
  unfold start?
  split
  case h_17 => rw [if_pos isDigit]
  all_goals contradiction

/-- Behind a leading zero a number ends. -/
theorem read?_zero (negative : Bool) (delimited : Delimited rest) :
    read? ⟨before, .zero negative⟩ rest =
      read? ⟨wholeNumber negative 0 :: before, .between⟩ rest := by
  cases rest with
  | nil => rfl
  | cons c rest =>
      have ends := delimited c rfl
      simp only [continuesNumber, Bool.or_eq_false_iff, beq_eq_false_iff_ne] at ends
      have stepEq : step? ⟨before, .zero negative⟩ c =
          step? ⟨wholeNumber negative 0 :: before, .between⟩ c := by
        simp [step?, emit, ends]
      rw [read?, run?, stepEq]
      rfl

/-- A number takes all digits that follow. -/
theorem read?_digits (value : Nat) {digits : List Char}
    (areDigits : ∀ c ∈ digits, c.isDigit = true) (delimited : Delimited rest) :
    read? ⟨before, .digits false value⟩ (digits ++ rest) =
      read? ⟨.natural (Nat.ofDigitChars 10 digits value) :: before, .between⟩ rest := by
  induction digits generalizing value with
  | nil =>
      cases rest with
      | nil => rfl
      | cons c rest =>
          have ends := delimited c rfl
          simp only [continuesNumber, Bool.or_eq_false_iff, beq_eq_false_iff_ne] at ends
          have stepEq : step? ⟨before, .digits false value⟩ c =
              step? ⟨.natural value :: before, .between⟩ c := by
            simp [step?, emit, wholeNumber, ends]
          rw [List.nil_append, read?, run?, stepEq]
          rfl
  | cons c digits ih =>
      rw [List.forall_mem_cons] at areDigits
      rw [Nat.ofDigitChars_cons, ← ih _ areDigits.2, Nat.mul_comm]
      exact read?_cons (by simp [step?, enter, areDigits.1]) _

end Scanner

namespace Spells

theorem nil : Spells [] [] :=
  fun _ _ _ => rfl

theorem append (spelled : Spells first firstTokens) (later : Spells second secondTokens)
    (delimited : Delimited second) : Spells (first ++ second) (firstTokens ++ secondTokens) := by
  intro before rest restDelimited
  rw [List.append_assoc, spelled before _ (delimited.append restDelimited),
    later _ rest restDelimited, List.reverse_append, List.append_assoc]

/-- A character may be a token by itself. -/
theorem cons (isToken : ∀ scanner : Scanner, scanner.start? c = some (scanner.emit token))
    (later : Spells characters tokens) : Spells (c :: characters) (token :: tokens) := by
  intro before rest delimited
  rw [List.cons_append, Scanner.read?_between (isToken _), Scanner.emit, later _ rest delimited,
    List.reverse_cons, List.append_assoc]
  rfl

/-- Blanks may stand before anything. -/
theorem blanks_append {blanks : List Char} (areBlank : ∀ c ∈ blanks, IsBlank c)
    (later : Spells characters tokens) : Spells (blanks ++ characters) tokens := by
  induction blanks with
  | nil => exact later
  | cons c blanks ih =>
      rw [List.forall_mem_cons] at areBlank
      intro before rest delimited
      rw [List.cons_append, List.cons_append,
        Scanner.read?_between (Scanner.start?_of_isBlank areBlank.1)]
      exact ih areBlank.2 before rest delimited

/-- A text that spells some tokens is scanned as these tokens. -/
theorem scan?_eq (spelled : Spells characters tokens) : scan? characters = some tokens := by
  have read := spelled [] [] .nil
  rw [List.append_nil, List.append_nil] at read
  calc scan? characters
    _ = Scanner.read? ⟨tokens.reverse, .between⟩ [] := read
    _ = some tokens := congrArg some tokens.reverse_reverse

end Spells

/-- The digits of a number other than zero have no leading zero. -/
theorem head_toDigits_ne_zero {value : Nat} (positive : 0 < value) :
    ∀ c ∈ (Nat.toDigits 10 value).head?, c ≠ '0' := by
  induction value using Nat.strongRecOn with
  | ind value ih =>
      by_cases small : value < 10
      · have digitNe : ∀ digit < 10, 0 < digit → digit.digitChar ≠ '0' := by decide
        rw [Nat.toDigits_of_lt_base small]
        rintro c ⟨⟩
        exact digitNe value small positive
      · have shorter := ih (value / 10) (by omega) (by omega)
        rw [Nat.toDigits_of_base_le (by decide) (by omega), List.head?_append]
        cases digits : Nat.toDigits 10 (value / 10) with
        | nil => exact absurd digits Nat.toDigits_ne_nil
        | cons c rest =>
            rw [digits] at shorter
            exact shorter

theorem Spells.natural (value : Nat) : Spells (Nat.toDigits 10 value) [.natural value] := by
  intro before rest delimited
  cases value with
  | zero => exact Scanner.read?_zero false delimited
  | succ value =>
      have areDigits : ∀ c ∈ Nat.toDigits 10 (value + 1), c.isDigit = true :=
        fun c member => Nat.isDigit_of_mem_toDigits (by decide) (by decide) member
      have notZero := head_toDigits_ne_zero (Nat.succ_pos value)
      have valueEq := Nat.ofDigitChars_toDigits (b := 10) (n := value + 1) (by decide) (by decide)
      cases digits : Nat.toDigits 10 (value + 1) with
      | nil => exact absurd digits Nat.toDigits_ne_nil
      | cons c later =>
          rw [digits] at areDigits notZero valueEq
          rw [List.forall_mem_cons] at areDigits
          rw [Nat.ofDigitChars_cons, Nat.mul_zero, Nat.zero_add] at valueEq
          have started := Scanner.start?_digit ⟨before, .between⟩ areDigits.1 (notZero c rfl)
          rw [List.cons_append, Scanner.read?_between started, Scanner.enter,
            Scanner.read?_digits _ areDigits.2 delimited, valueEq]
          rfl

theorem hexValue?_hexDigit : ∀ value < 16, hexValue? (Json.hexDigit value) = some value := by
  decide

/-- The two digits of a control character, behind two zeros, are its code. -/
theorem Scanner.read?_control {content : List Char} (control : c.toNat < 0x20) :
    read? ⟨before, .literal ⟨.hex 1 0, none, some content⟩⟩
        (Json.hexDigit (c.toNat / 16) :: Json.hexDigit (c.toNat % 16) :: rest) =
      read? ⟨before, .literal { content := some (c :: content) }⟩ rest := by
  have high := hexValue?_hexDigit (c.toNat / 16) (by omega)
  have low := hexValue?_hexDigit (c.toNat % 16) (by omega)
  have codeEq : c.toNat / 16 * 16 + c.toNat % 16 = c.toNat := by omega
  have pushed : Literal.pushUnit ⟨.hex 0 (c.toNat / 16), none, some content⟩ c.toNat =
      { content := some (c :: content) } := by
    rw [Literal.pushUnit, if_neg (by omega), if_neg (by omega), Char.ofNat_toNat]
    rfl
  calc read? ⟨before, .literal ⟨.hex 1 0, none, some content⟩⟩
        (Json.hexDigit (c.toNat / 16) :: Json.hexDigit (c.toNat % 16) :: rest)
    _ = read? ⟨before, .literal ⟨.hex 0 (c.toNat / 16), none, some content⟩⟩
        (Json.hexDigit (c.toNat % 16) :: rest) :=
      read?_cons (by simp [step?, continueLiteral?, enter, high]) _
    _ = read? ⟨before, .literal { content := some (c :: content) }⟩ rest :=
      read?_cons (by simp [step?, continueLiteral?, enter, low, codeEq, pushed]) _

/-- The spelling of a character adds the character to a literal. -/
theorem Scanner.read?_escape (c : Char) (content : List Char) (before : List Token)
    (rest : List Char) :
    read? ⟨before, .literal { content := some content }⟩ (Json.escape c ++ rest) =
      read? ⟨before, .literal { content := some (c :: content) }⟩ rest := by
  rw [Json.escape]
  split
  · next isQuote => subst isQuote; rfl
  split
  · next isBackslash => subst isBackslash; rfl
  split
  · next isBackspace => subst isBackspace; rfl
  split
  · next isFormFeed => subst isFormFeed; rfl
  split
  · next isNewline => subst isNewline; rfl
  split
  · next isReturn => subst isReturn; rfl
  split
  · next isTab => subst isTab; rfl
  split
  · next control => exact read?_control control
  · next notQuote notBackslash _ _ _ _ _ notControl =>
      apply read?_cons
      simp [step?, continueLiteral?, enter, Literal.push, notQuote, notBackslash, notControl]

theorem Scanner.read?_flatMap_escape (characters content : List Char) (before : List Token)
    (rest : List Char) :
    read? ⟨before, .literal { content := some content }⟩
        (characters.flatMap Json.escape ++ rest) =
      read? ⟨before, .literal { content := some (characters.reverse ++ content) }⟩ rest := by
  induction characters generalizing content with
  | nil => rfl
  | cons c characters ih =>
      rw [List.flatMap_cons, List.append_assoc, read?_escape, ih, List.reverse_cons,
        List.append_assoc, List.singleton_append]

/-- A text is spelled as it is written, and so is a literal without a text. -/
theorem Spells.text (content : Option String) :
    Spells (Json.writeText content) [.string content] := by
  intro before rest _
  cases content with
  | none => rfl
  | some content =>
      have finished : Literal.finish { content := some content.toList.reverse } = some content := by
        simp [Literal.finish]
      rw [Json.writeText, List.append_assoc, List.cons_append, Scanner.read?_between rfl,
        Scanner.enter, Scanner.read?_flatMap_escape, List.append_nil, List.singleton_append]
      apply Scanner.read?_cons
      simp [Scanner.step?, Scanner.continueLiteral?, Scanner.emit, finished]

end Token

end AttributeFlow
