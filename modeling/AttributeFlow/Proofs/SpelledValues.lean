import AttributeFlow.Json.Reader
import AttributeFlow.Proofs.SpelledTokens

/-!
# Written values are read back

A value is written as the tokens that spell it, with blanks between them that depend
on the layout, and from these tokens the value is built again.  So any layout that adds
nothing but blanks gives a text from which the value is read back.
-/

namespace AttributeFlow

namespace Json

open Token

mutual

/-- The tokens that spell a value. -/
def tokens : Json → List Token
  | .null => [.null]
  | .bool value => [.bool value]
  | .natural value => [.natural value]
  | .otherNumber => [.otherNumber]
  | .string content => [.string content]
  | .array [] => [.openArray, .closeArray]
  | .array (item :: items) =>
      .openArray :: (tokens item ++ (itemTokens items ++ [.closeArray]))
  | .object [] => [.openObject, .closeObject]
  | .object (member :: members) =>
      .openObject :: (memberTokens member ++ (membersTokens members ++ [.closeObject]))

/-- The tokens of the items after the first, each with the comma before it. -/
def itemTokens : List Json → List Token
  | [] => []
  | item :: items => .comma :: (tokens item ++ itemTokens items)

def memberTokens : Option String × Json → List Token
  | (name, value) => .string name :: .colon :: tokens value

/-- The tokens of the members after the first, each with the comma before it. -/
def membersTokens : List (Option String × Json) → List Token
  | [] => []
  | member :: members => .comma :: (memberTokens member ++ membersTokens members)

end

namespace Layout

/-- The layout adds nothing but blanks. -/
structure IsBlank (layout : Layout) : Prop where
  lineBreak : ∀ depth, ∀ c ∈ layout.lineBreak depth, Token.IsBlank c
  afterColon : ∀ c ∈ layout.afterColon, Token.IsBlank c

theorem isBlank_compact : compact.IsBlank where
  lineBreak _ _ impossible := nomatch impossible
  afterColon _ impossible := nomatch impossible

theorem isBlank_indented : indented.IsBlank where
  lineBreak depth c member := by
    rcases List.mem_cons.mp member with rfl | member
    · simp [Token.IsBlank]
    · rw [List.eq_of_mem_replicate member]
      simp [Token.IsBlank]
  afterColon c member := by
    rw [List.mem_singleton.mp member]
    simp [Token.IsBlank]

end Layout

variable {layout : Layout}

theorem delimited_writeItems (layout : Layout) (depth : Nat) (items : List Json) :
    Delimited (writeItems layout depth items) := by
  cases items with
  | nil => exact .nil
  | cons item items =>
      rw [writeItems]
      exact .cons rfl

theorem delimited_writeMembers (layout : Layout) (depth : Nat)
    (members : List (Option String × Json)) :
    Delimited (writeMembers layout depth members) := by
  cases members with
  | nil => exact .nil
  | cons member members =>
      rw [writeMembers]
      exact .cons rfl

/-- A closing bracket may stand on a line of its own. -/
theorem Layout.IsBlank.closes (blank : layout.IsBlank) (depth : Nat) {c : Char} {token : Token}
    (isToken : ∀ scanner : Scanner, scanner.start? c = some (scanner.emit token))
    (ends : continuesNumber c = false) :
    Spells (layout.lineBreak depth ++ [c]) [token]
      ∧ Delimited (layout.lineBreak depth ++ [c]) :=
  ⟨.blanks_append (blank.lineBreak depth) (.cons isToken .nil),
    .append (.of_blanks (blank.lineBreak depth)) (.cons ends)⟩

mutual

/-- Writing a value spells its tokens. -/
theorem spells_write (blank : layout.IsBlank) (depth : Nat) :
    ∀ value : Json, Spells (write layout depth value) (tokens value)
  | .null | .bool true | .bool false => by
      rw [write, tokens]
      exact fun _ _ _ => rfl
  | .natural value => by
      rw [write, tokens]
      exact .natural value
  | .otherNumber => by
      rw [write, tokens]
      exact fun _ _ delimited => Scanner.read?_zero true delimited
  | .string content => by
      rw [write, tokens]
      exact .text content
  | .array [] | .object [] => by
      rw [write, tokens]
      exact fun _ _ _ => rfl
  | .array (item :: items) => by
      obtain ⟨closing, closingDelimited⟩ := blank.closes depth (c := ']') (fun _ => rfl) rfl
      have later := (spells_writeItems blank (depth + 1) items).append closing closingDelimited
      have delimited := (delimited_writeItems layout (depth + 1) items).append closingDelimited
      rw [write, tokens, List.cons_append]
      refine .cons (fun _ => rfl) (.blanks_append (blank.lineBreak (depth + 1)) ?_)
      exact (spells_write blank (depth + 1) item).append later delimited
  | .object (member :: members) => by
      obtain ⟨closing, closingDelimited⟩ := blank.closes depth (c := '}') (fun _ => rfl) rfl
      have later := (spells_writeMembers blank (depth + 1) members).append closing closingDelimited
      have delimited := (delimited_writeMembers layout (depth + 1) members).append closingDelimited
      rw [write, tokens, List.cons_append]
      refine .cons (fun _ => rfl) (.blanks_append (blank.lineBreak (depth + 1)) ?_)
      exact (spells_writeMember blank (depth + 1) member).append later delimited

theorem spells_writeItems (blank : layout.IsBlank) (depth : Nat) :
    ∀ items : List Json, Spells (writeItems layout depth items) (itemTokens items)
  | [] => by
      rw [writeItems, itemTokens]
      exact .nil
  | item :: items => by
      have later := spells_writeItems blank depth items
      rw [writeItems, itemTokens, List.cons_append]
      refine .cons (fun _ => rfl) (.blanks_append (blank.lineBreak depth) ?_)
      exact (spells_write blank depth item).append later (delimited_writeItems layout depth items)

theorem spells_writeMember (blank : layout.IsBlank) (depth : Nat) :
    ∀ member : Option String × Json,
      Spells (writeMember layout depth member) (memberTokens member)
  | (name, value) => by
      have spelledValue := spells_write blank depth value
      rw [writeMember, memberTokens, List.cons_append]
      refine (Spells.text name).append (.cons (fun _ => rfl) ?_) (.cons rfl)
      exact .blanks_append blank.afterColon spelledValue

theorem spells_writeMembers (blank : layout.IsBlank) (depth : Nat) :
    ∀ members : List (Option String × Json),
      Spells (writeMembers layout depth members) (membersTokens members)
  | [] => by
      rw [writeMembers, membersTokens]
      exact .nil
  | member :: members => by
      have later := spells_writeMembers blank depth members
      rw [writeMembers, membersTokens, List.cons_append]
      refine .cons (fun _ => rfl) (.blanks_append (blank.lineBreak depth) ?_)
      exact (spells_writeMember blank depth member).append later
        (delimited_writeMembers layout depth members)

end

namespace Builder

/-- The first item of an array is read like any other value. -/
theorem run?_openedArray (outer : List Frame) (value : Json) (rest : List Token) :
    run? (.openedArray outer) (tokens value ++ rest) =
      run? (.wantsValue (.item [] :: outer)) (tokens value ++ rest) := by
  cases value with
  | array items =>
      cases items with
      | nil =>
          rw [tokens]
          rfl
      | cons item items =>
          rw [tokens]
          rfl
  | object members =>
      cases members with
      | nil =>
          rw [tokens]
          rfl
      | cons member members =>
          rw [tokens]
          rfl
  | _ =>
      rw [tokens]
      rfl

/-- The first name in an object is read like any other name. -/
theorem run?_openedObject (outer : List Frame) (member : Option String × Json)
    (rest : List Token) :
    run? (.openedObject outer) (memberTokens member ++ rest) =
      run? (.wantsName outer []) (memberTokens member ++ rest) := by
  obtain ⟨name, value⟩ := member
  rw [memberTokens]
  rfl

mutual

/-- The tokens of a value complete the value. -/
theorem run?_tokens (outer : List Frame) (rest : List Token) (value : Json) :
    run? (.wantsValue outer) (tokens value ++ rest) = run? (.complete outer value) rest := by
  match value with
  | .null | .bool _ | .natural _ | .otherNumber | .string _ | .array [] | .object [] =>
      rw [tokens]
      rfl
  | .array (item :: items) =>
      rw [tokens, List.cons_append, List.append_assoc, List.append_assoc]
      calc run? (.openedArray outer) (tokens item ++ (itemTokens items ++ .closeArray :: rest))
        _ = run? (.complete (.item [] :: outer) item) (itemTokens items ++ .closeArray :: rest) :=
          (run?_openedArray outer item _).trans (run?_tokens (.item [] :: outer) _ item)
        _ = run? (.complete outer (.array (item :: items))) rest :=
          run?_itemTokens outer [] item rest items
  | .object (member :: members) =>
      rw [tokens, List.cons_append, List.append_assoc, List.append_assoc]
      calc run? (.openedObject outer)
            (memberTokens member ++ (membersTokens members ++ .closeObject :: rest))
        _ = run? (.complete (.member [] member.1 :: outer) member.2)
            (membersTokens members ++ .closeObject :: rest) :=
          (run?_openedObject outer member _).trans (run?_memberTokens outer [] _ member)
        _ = run? (.complete outer (.object (member :: members))) rest :=
          run?_membersTokens outer [] member.1 member.2 rest members
termination_by structural value

theorem run?_itemTokens (outer : List Frame) (before : List Json) (first : Json)
    (rest : List Token) (items : List Json) :
    run? (.complete (.item before :: outer) first) (itemTokens items ++ .closeArray :: rest) =
      run? (.complete outer (.array ((first :: before).reverse ++ items))) rest := by
  match items with
  | [] =>
      rw [itemTokens, List.append_nil]
      rfl
  | item :: items =>
      rw [itemTokens, List.cons_append, List.append_assoc]
      calc run? (.wantsValue (.item (first :: before) :: outer))
            (tokens item ++ (itemTokens items ++ .closeArray :: rest))
        _ = run? (.complete (.item (first :: before) :: outer) item)
            (itemTokens items ++ .closeArray :: rest) :=
          run?_tokens (.item (first :: before) :: outer) _ item
        _ = run? (.complete outer (.array ((item :: first :: before).reverse ++ items))) rest :=
          run?_itemTokens outer (first :: before) item rest items
        _ = run? (.complete outer (.array ((first :: before).reverse ++ item :: items))) rest := by
          rw [List.reverse_cons, List.append_assoc, List.singleton_append]
termination_by structural items

theorem run?_memberTokens (outer : List Frame) (before : List (Option String × Json))
    (rest : List Token) (member : Option String × Json) :
    run? (.wantsName outer before) (memberTokens member ++ rest) =
      run? (.complete (.member before member.1 :: outer) member.2) rest := by
  match member with
  | (name, value) =>
      rw [memberTokens]
      exact run?_tokens (.member before name :: outer) rest value
termination_by structural member

theorem run?_membersTokens (outer : List Frame) (before : List (Option String × Json))
    (name : Option String) (value : Json) (rest : List Token)
    (members : List (Option String × Json)) :
    run? (.complete (.member before name :: outer) value)
        (membersTokens members ++ .closeObject :: rest) =
      run? (.complete outer (.object (((name, value) :: before).reverse ++ members))) rest := by
  match members with
  | [] =>
      rw [membersTokens, List.append_nil]
      rfl
  | member :: members =>
      rw [membersTokens, List.cons_append, List.append_assoc]
      calc run? (.wantsName outer ((name, value) :: before))
            (memberTokens member ++ (membersTokens members ++ .closeObject :: rest))
        _ = run? (.complete (.member ((name, value) :: before) member.1 :: outer) member.2)
            (membersTokens members ++ .closeObject :: rest) :=
          run?_memberTokens outer ((name, value) :: before) _ member
        _ = run? (.complete outer
            (.object ((member :: (name, value) :: before).reverse ++ members))) rest :=
          run?_membersTokens outer ((name, value) :: before) member.1 member.2 rest members
        _ = run? (.complete outer
            (.object (((name, value) :: before).reverse ++ member :: members))) rest := by
          rw [List.reverse_cons, List.append_assoc, List.singleton_append]
termination_by structural members

end

end Builder

theorem ofTokens?_tokens (value : Json) : ofTokens? (tokens value) = some value := by
  have built := Builder.run?_tokens [] [] value
  rw [List.append_nil] at built
  rw [ofTokens?, built]
  rfl

/-- A value is read back from its text in any layout that adds nothing but blanks. -/
theorem parse?_render (blank : layout.IsBlank) (value : Json) :
    parse? (value.render layout) = some value := by
  rw [parse?, render, String.toList_ofList, (spells_write blank 0 value).scan?_eq,
    Option.bind_some, ofTokens?_tokens]

theorem parse?_compress (value : Json) : parse? value.compress = some value :=
  parse?_render Layout.isBlank_compact value

end Json

end AttributeFlow
