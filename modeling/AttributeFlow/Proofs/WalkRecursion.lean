import AttributeFlow.Proofs.ArenaGrowth
import AttributeFlow.Proofs.LazyWalks

/-!
# Walks as a recursion

What an expression depends on may be listed by recursion: first its own accesses, then the lists
of its inputs, one after the other.  On an arena that was filled by additions inputs come before
what is computed from them, so there is one such listing, and a walk that goes on until its
stack is empty ends and gives exactly this one.  An input that occurs on several paths is listed
on each of them.
-/

namespace AttributeFlow.ExpressionArena

/-- The listing follows the recursion over inputs.  Nothing is listed for an expression that is
unknown or has the same value for every element. -/
def ListsByRecursion (arena : ExpressionArena) (listing : ExpressionId → List Access) : Prop :=
  ∀ expr, listing expr =
    match arena.get? expr with
    | none => []
    | some expression =>
        if expression.varies then expression.reads ++ expression.inputs.flatMap listing else []

variable {arena : ExpressionArena} {listing : ExpressionId → List Access} {expr : ExpressionId}

theorem listsByRecursion_iff_varies :
    arena.ListsByRecursion listing ↔ ∀ expr, listing expr =
      if arena.varies expr then arena.reads expr ++ (arena.inputs expr).flatMap listing
      else [] := by
  apply forall_congr'
  intro expr
  rw [varies, reads, inputs]
  cases arena.get? expr <;> simp

/-- The recursion ends where the walk does, and has listed the levels of the walk. -/
theorem ListsByRecursion.listing_eq_unfold (lists : arena.ListsByRecursion listing) {levels : Nat}
    (ends : arena.EndsIn levels expr) : listing expr = arena.unfold levels expr := by
  induction levels generalizing expr with
  | zero => exact ends.elim
  | succ levels ih =>
      rw [listsByRecursion_iff_varies.mp lists expr, unfold]
      cases varies : arena.varies expr with
      | false => rfl
      | true =>
          have inputsEq : (arena.inputs expr).flatMap listing =
              (arena.inputs expr).flatMap (arena.unfold levels) :=
            List.flatMap_congr fun input member => ih (ends varies input member)
          rw [inputsEq]

/-- The cursor of a walk that ends within the levels of the bound finishes, and has then handed
out what walks collect. -/
theorem EndsIn.exists_run_isFinished (ends : arena.EndsIn (arena.size + 1) expr) :
    ∃ steps, (WalkCursor.run arena expr steps).IsFinished
      ∧ (WalkCursor.run arena expr steps).handedOut = arena.collect expr := by
  obtain ⟨steps, walkEq, pendingNil⟩ :=
    WalkCursor.exists_run_walk_eq arena expr arena.visitBound
  rw [Walk.after, ← Walk.advance_eq_iterate, advance_start ends, WalkCursor.walk, pendingNil,
    List.append_nil] at walkEq
  obtain ⟨foundEq, stackEq⟩ := Walk.mk.inj walkEq
  refine ⟨steps, ⟨pendingNil, by simpa using stackEq⟩, ?_⟩
  rw [collect_eq_unfold ends]
  simpa using foundEq

namespace Acyclic

variable (acyclic : arena.Acyclic)

include acyclic

theorem collect_eq_unfold (expr : ExpressionId) :
    arena.collect expr = arena.unfold (arena.size + 1) expr :=
  ExpressionArena.collect_eq_unfold (acyclic.endsIn expr)

/-- Without cycles, what walks collect is the one listing that follows the recursion. -/
theorem listsByRecursion_iff : arena.ListsByRecursion listing ↔ listing = arena.collect := by
  constructor
  · intro lists
    funext expr
    rw [lists.listing_eq_unfold (acyclic.endsIn expr), acyclic.collect_eq_unfold]
  · rintro rfl
    rw [listsByRecursion_iff_varies]
    intro expr
    rw [acyclic.collect_eq_unfold, ← (acyclic.endsIn expr).unfold_add 1, unfold,
      ← funext acyclic.collect_eq_unfold]

/-- Without cycles, a cursor finishes and has then handed out what walks collect. -/
theorem exists_run_isFinished (expr : ExpressionId) :
    ∃ steps, (WalkCursor.run arena expr steps).IsFinished
      ∧ (WalkCursor.run arena expr steps).handedOut = arena.collect expr :=
  (acyclic.endsIn expr).exists_run_isFinished

/-- Without cycles, the first accesses are those that a walk collects first. -/
theorem collectFirst_eq_take (count : Nat) (expr : ExpressionId) :
    arena.collectFirst count expr = (arena.collect expr).take count := by
  obtain ⟨steps, finished, handedOutEq⟩ := acyclic.exists_run_isFinished expr
  rw [WalkCursor.collectFirst_eq_take_of_isFinished finished, handedOutEq]

end Acyclic

/-- In an arena filled by additions, whether or not some of them were refused, the walk of any
expression ends, known or not, and what it has met is given by the recursion: nothing for an
expression that is unknown or the same for every element, and otherwise its own accesses and
then those of its inputs in order.  Asking for the first accesses gives a first part of it. -/
theorem walk_follows_recursion (additions : List Addition) :
    let arena := growAll {} additions
    (∀ listing, arena.ListsByRecursion listing ↔ listing = arena.collect)
      ∧ ∀ expr,
        (∃ steps, (WalkCursor.run arena expr steps).IsFinished
          ∧ (WalkCursor.run arena expr steps).handedOut = arena.collect expr)
        ∧ ∀ count, arena.collectFirst count expr = (arena.collect expr).take count := by
  intro arena
  have acyclic : arena.Acyclic := (InputsEarlier.empty.growAll additions).acyclic
  refine ⟨fun listing => acyclic.listsByRecursion_iff, ?_⟩
  intro expr
  obtain ⟨steps, finished, handedOutEq⟩ := acyclic.exists_run_isFinished expr
  refine ⟨⟨steps, finished, handedOutEq⟩, ?_⟩
  intro count
  rw [WalkCursor.collectFirst_eq_take_of_isFinished finished, handedOutEq]

/-- A shared input is met once on each path, and one that does not vary not at all. -/
example :
    let arena := growAll {} [.current .age, .constant "scale", .computed "unknown" [⟨7⟩],
      .computed "scaled" [⟨0⟩, ⟨1⟩], .computed "squared" [⟨2⟩, ⟨2⟩]]
    arena.collect ⟨3⟩ = [.read .age, .read .age] ∧ arena.collect ⟨1⟩ = []
      ∧ arena.collect ⟨4⟩ = [] := by
  decide

end AttributeFlow.ExpressionArena
