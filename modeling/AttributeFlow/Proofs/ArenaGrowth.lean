import AttributeFlow.Proofs.ExpressionDependence

/-!
# How an arena grows

An addition to an arena is refused, and then changes nothing, or it appends an
expression whose inputs are there already.  So in an arena that is filled by
additions the inputs of every expression come before it, and there are no cycles.
-/

namespace AttributeFlow

/-- The expression that makes one access and nothing else. -/
def Expression.ofAccess (access : Access) : Expression :=
  { label := access.attr.name, varies := true, inputs := [], reads := [access] }

namespace ExpressionArena

/-- Something that may be added to an arena. -/
inductive Addition
  | current (attr : Attribute)
  | source (attr : Attribute)
  | constant (label : String)
  | computed (label : String) (inputs : List ExpressionId)
  | verbatim (expression : Expression)

def add (arena : ExpressionArena) : Addition → Except Fault (ExpressionArena × ExpressionId)
  | .current attr => .ok (arena.pushCurrent attr)
  | .source attr => .ok (arena.pushSource attr)
  | .constant label => .ok (arena.pushConstant label)
  | .computed label inputs => arena.pushComputed label inputs
  | .verbatim expression => arena.insert expression

/-- The expression that an addition appends unless it is refused. -/
def Addition.expression (arena : ExpressionArena) : Addition → Expression
  | .current attr => .ofAccess (.read attr)
  | .source attr => .ofAccess (.readSource attr)
  | .constant label => { label, varies := false, inputs := [], reads := [] }
  | .computed label inputs =>
      { label, varies := inputs.any arena.varies, inputs, reads := [] }
  | .verbatim expression => expression

/-- The arena after an addition, whether or not it was refused. -/
def grow (arena : ExpressionArena) (addition : Addition) : ExpressionArena :=
  match arena.add addition with
  | .ok (next, _) => next
  | .error _ => arena

/-- The arena after some additions, made one after the other. -/
def growAll (arena : ExpressionArena) (additions : List Addition) : ExpressionArena :=
  additions.foldl grow arena

/-- The inputs of every expression come before it. -/
def InputsEarlier (arena : ExpressionArena) : Prop :=
  ∀ (place : Nat) (expression : Expression), arena.expressions[place]? = some expression →
    ∀ input ∈ expression.inputs, input.index.toNat < place

variable {arena next : ExpressionArena} {addition : Addition} {expr : ExpressionId}

theorem present_of_permit {inputs : List ExpressionId} (permitted : arena.permit inputs = .ok ()) :
    ∀ input ∈ inputs, input.index.toNat < arena.size := by
  rw [permit] at permitted
  split at permitted
  · cases permitted
  · next noneMissing =>
      intro input member
      have present := List.find?_eq_none.mp noneMissing input member
      simpa [get?, size] using present

/-- Every addition asks for its inputs to be present, and then appends its expression. -/
theorem add_eq (arena : ExpressionArena) (addition : Addition) :
    arena.add addition = (do
      arena.permit (addition.expression arena).inputs
      return arena.push (addition.expression arena)) := by
  cases addition <;> rfl

/-- An addition that is not refused appends its expression, whose inputs are present. -/
theorem cases_of_add_ok (added : arena.add addition = .ok (next, expr)) :
    (∀ input ∈ (addition.expression arena).inputs, input.index.toNat < arena.size)
      ∧ next = ⟨arena.expressions.push (addition.expression arena)⟩
      ∧ expr = ⟨UInt32.ofNat arena.size⟩ := by
  rw [add_eq] at added
  cases permitted : arena.permit (addition.expression arena).inputs with
  | error fault =>
      rw [permitted] at added
      cases added
  | ok granted =>
      rw [permitted] at added
      cases added
      exact ⟨present_of_permit permitted, rfl, rfl⟩

/-- An arena stays as it is, or the expression of the addition is appended to it. -/
theorem cases_of_grow (arena : ExpressionArena) (addition : Addition) :
    arena.grow addition = arena
      ∨ (∀ input ∈ (addition.expression arena).inputs, input.index.toNat < arena.size)
        ∧ arena.grow addition = ⟨arena.expressions.push (addition.expression arena)⟩ := by
  rw [grow]
  split
  · next added =>
      obtain ⟨present, nextEq, _⟩ := cases_of_add_ok added
      exact .inr ⟨present, nextEq⟩
  · exact .inl rfl

namespace InputsEarlier

theorem empty : InputsEarlier {} := by
  intro place expression found
  simp at found

theorem push (earlier : arena.InputsEarlier) {expression : Expression}
    (present : ∀ input ∈ expression.inputs, input.index.toNat < arena.size) :
    InputsEarlier ⟨arena.expressions.push expression⟩ := by
  intro place other found
  rw [Array.getElem?_push] at found
  split at found
  · next atEnd =>
      cases found
      rw [atEnd]
      exact present
  · exact earlier place other found

theorem grow (earlier : arena.InputsEarlier) (addition : Addition) :
    (arena.grow addition).InputsEarlier := by
  rcases arena.cases_of_grow addition with same | ⟨present, grownEq⟩
  · rw [same]
    exact earlier
  · rw [grownEq]
    exact earlier.push present

theorem growAll (earlier : arena.InputsEarlier) (additions : List Addition) :
    (arena.growAll additions).InputsEarlier := by
  induction additions generalizing arena with
  | nil => exact earlier
  | cons addition additions ih => exact ih (earlier.grow addition)

theorem index_lt_of_feeds (earlier : arena.InputsEarlier) {input : ExpressionId}
    (feeds : arena.Feeds expr input) : input.index.toNat < expr.index.toNat :=
  ExpressionArena.index_lt_of_feeds
    (fun place => earlier place arena.expressions[place] (Array.getElem?_eq_getElem place.isLt))
    feeds

theorem acyclic (earlier : arena.InputsEarlier) : arena.Acyclic :=
  acyclic_of_feeds_earlier fun _ _ => earlier.index_lt_of_feeds

end InputsEarlier

end ExpressionArena

end AttributeFlow
