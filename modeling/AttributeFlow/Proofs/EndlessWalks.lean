import AttributeFlow.Proofs.LastingExpressions
import AttributeFlow.Proofs.WireTexts

/-!
# Walks without an end

In an arena that was filled by additions inputs come before what is computed from them, so every
walk ends.  An arena may also be read from a text, and then it has whatever inputs the text gives:
there is a text for every arena.  Additions neither establish the order of inputs nor break it.
An arena has it exactly if the one had it that was there before the additions.

Whether a walk ends can be told from the arena in any case.  It does not exactly if it comes, over
expressions that vary from element to element, to one that is among its own inputs, directly or
through others.  An expression that does not vary is never entered, so no loop leads through it.
-/

namespace AttributeFlow.ExpressionArena

/-- The cursor of an expression finishes. -/
def WalkEnds (arena : ExpressionArena) (expr : ExpressionId) : Prop :=
  ∃ steps, (WalkCursor.run arena expr steps).IsFinished

variable {arena : ExpressionArena} {expr : ExpressionId}

theorem EndsIn.succ {levels : Nat} (ends : arena.EndsIn levels expr) :
    arena.EndsIn (levels + 1) expr := by
  induction levels generalizing expr with
  | zero => exact ends.elim
  | succ levels ih => exact fun varies input member => ih (ends varies input member)

/-- Once a stack is empty, all that was on it has been visited, with no more levels than
visits. -/
theorem endsIn_of_iterate_visit {visits : Nat} {walk : Walk}
    (ended : ((Walk.visit arena)^[visits] walk).stack = []) :
    ∀ expr ∈ walk.stack, arena.EndsIn visits expr := by
  induction visits generalizing walk with
  | zero =>
      intro expr member
      rw [Function.iterate_zero_apply] at ended
      rw [ended] at member
      cases member
  | succ visits ih =>
      have later := ih (Function.iterate_succ_apply _ _ walk ▸ ended)
      obtain ⟨found, stack⟩ := walk
      intro expr member
      cases stack with
      | nil => cases member
      | cons next rest =>
          cases varies : arena.varies next with
          | true =>
              simp only [Walk.visit, varies, if_true, List.mem_append] at later
              rcases List.mem_cons.mp member with rfl | below
              · exact fun _ input feeds => later input (.inl feeds)
              · exact (later expr (.inr below)).succ
          | false =>
              simp only [Walk.visit, varies, Bool.false_eq_true, if_false] at later
              rcases List.mem_cons.mp member with rfl | below
              · intro impossible
                rw [varies] at impossible
                cases impossible
              · exact (later expr below).succ

/-- A walk ends exactly if it comes to no loop. -/
theorem walkEnds_iff (arena : ExpressionArena) (expr : ExpressionId) :
    arena.WalkEnds expr ↔ ¬ arena.ReachesLoop expr := by
  constructor
  · rintro ⟨steps, _, stackNil⟩
    have ended : (Walk.after arena expr (WalkCursor.run arena expr steps).visits).stack = [] := by
      rw [WalkCursor.stack_run, stackNil]
      rfl
    exact (endsIn_of_iterate_visit ended expr List.mem_cons_self).not_reachesLoop
  · intro noLoop
    obtain ⟨steps, finished, _⟩ := (endsIn_of_not_reachesLoop noLoop).exists_run_isFinished
    exact ⟨steps, finished⟩

theorem InputsEarlier.walkEnds (earlier : arena.InputsEarlier) (expr : ExpressionId) :
    arena.WalkEnds expr :=
  (arena.walkEnds_iff expr).mpr (earlier.acyclic.not_reachesLoop expr)

theorem KeptIn.inputsEarlier {next : ExpressionArena} (kept : arena.KeptIn next)
    (earlier : next.InputsEarlier) : arena.InputsEarlier := by
  intro place expression found
  obtain ⟨placeLt, _⟩ := Array.getElem?_eq_some_iff.mp found
  exact earlier place expression ((kept place placeLt).trans found)

/-- Additions neither establish the order of inputs nor break it. -/
theorem inputsEarlier_growAll_iff (arena : ExpressionArena) (additions : List Addition) :
    (arena.growAll additions).InputsEarlier ↔ arena.InputsEarlier :=
  ⟨(KeptIn.growAll arena additions).inputsEarlier, fun earlier => earlier.growAll additions⟩

/-- In an arena that begins empty, whatever is added to it, inputs come before what is computed
from them, and the walk of every expression ends.  An arena can also be read from a text, and
any arena is read from some text.  Whatever is added to it, its inputs then come first exactly if
they did in the text.  If they do, every walk ends; in any case a walk ends exactly if it comes
to no loop. -/
theorem walkEnds_iff_no_loop (additions : List Addition) :
    let filled := growAll {} additions
    (filled.InputsEarlier ∧ ∀ expr, filled.WalkEnds expr)
      ∧ ∀ start : ExpressionArena,
        let arena := start.growAll additions
        JsonForm.read? (JsonForm.write start) = some start
          ∧ (arena.InputsEarlier ↔ start.InputsEarlier)
          ∧ (start.InputsEarlier → ∀ expr, arena.WalkEnds expr)
          ∧ ∀ expr, arena.WalkEnds expr ↔ ¬ arena.ReachesLoop expr := by
  intro filled
  have earlier : filled.InputsEarlier := InputsEarlier.empty.growAll additions
  refine ⟨⟨earlier, earlier.walkEnds⟩, ?_⟩
  intro start arena
  exact ⟨JsonForm.losslessTexts_of_lawful.read?_write start,
    start.inputsEarlier_growAll_iff additions,
    fun startEarlier => (startEarlier.growAll additions).walkEnds, arena.walkEnds_iff⟩

/-- A text gives an age, which is then scaled.  Inputs come first in both, so the walk of what is
scaled ends. -/
theorem walkEnds_iff_no_loop_scaled :
    let start : ExpressionArena := ⟨#[⟨"age", true, [], [.read .age]⟩]⟩
    let arena := start.growAll [.constant "scale", .computed "scaled" [⟨0⟩, ⟨1⟩, ⟨0⟩]]
    start.InputsEarlier ∧ arena.InputsEarlier ∧ arena.WalkEnds ⟨2⟩
      ∧ ¬ arena.ReachesLoop ⟨2⟩ := by
  intro start arena
  have startEarlier : start.InputsEarlier := InputsEarlier.empty.growAll [.current .age]
  obtain ⟨_, earlierIff, ends, endsIff⟩ := (walkEnds_iff_no_loop
    [.constant "scale", .computed "scaled" [⟨0⟩, ⟨1⟩, ⟨0⟩]]).2 start
  exact ⟨startEarlier, earlierIff.mpr startEarlier, ends startEarlier ⟨2⟩,
    (endsIff ⟨2⟩).mp (ends startEarlier ⟨2⟩)⟩

/-- A text gives an expression that is its own input.  It is read, and the walk goes on forever. -/
theorem read_loop_never_finishes :
    let arena : ExpressionArena := ⟨#[⟨"loop", true, [⟨0⟩], [.read .age]⟩]⟩
    JsonForm.read? ("\x7b\"nodes\":[\x7b\"label\":\"loop\",\"per_element\":true,"
        ++ "\"parents\":[0],\"needed\":[\x7b\"attribute\":"
        ++ "\x7b\"name\":\"age\",\"ty\":\"Float\"\x7d,\"mode\":1\x7d]\x7d]\x7d") = some arena
      ∧ ¬ arena.InputsEarlier
      ∧ ∀ steps, ¬ (WalkCursor.run arena ⟨0⟩ steps).IsFinished := by
  intro arena
  have loops : arena.ReachesLoop ⟨0⟩ :=
    ⟨⟨0⟩, .refl, .single ⟨by decide, List.mem_singleton_self _⟩⟩
  refine ⟨by decide +kernel, ?_, ?_⟩
  · intro earlier
    exact earlier.acyclic.not_reachesLoop ⟨0⟩ loops
  · intro steps finished
    exact (arena.walkEnds_iff ⟨0⟩).mp ⟨steps, finished⟩ loops

end AttributeFlow.ExpressionArena
