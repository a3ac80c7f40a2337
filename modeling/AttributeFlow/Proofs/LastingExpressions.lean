import AttributeFlow.Proofs.AnalysisDependence
import AttributeFlow.Proofs.WalkRecursion

/-!
# Expressions that last

An addition puts an expression behind all others or is refused, so whatever is in an arena
keeps its place.  Inputs come before what is computed from them, so the walk of an old
expression meets old ones only, and it collects from the grown arena what it collected before.

An analysis asks an arena for nothing but what the expressions of the owners collect.  As long
as these are old ones, it takes the same course after some additions as before them.
-/

namespace AttributeFlow

namespace ExpressionArena

/-- What an addition answers: the name of the expression it appends, or why it is refused. -/
def answer (arena : ExpressionArena) (addition : Addition) : Except Fault ExpressionId :=
  (arena.add addition).map Prod.snd

/-- The answers to some additions, made one after the other. -/
def answers (arena : ExpressionArena) : List Addition → List (Except Fault ExpressionId)
  | [] => []
  | addition :: additions => arena.answer addition :: (arena.grow addition).answers additions

/-- The names that some additions are given, those that are refused apart. -/
def granted (arena : ExpressionArena) (additions : List Addition) : List ExpressionId :=
  (arena.answers additions).filterMap Except.toOption

variable {arena next : ExpressionArena} {addition : Addition} {additions : List Addition}
  {expr : ExpressionId} {fault : Fault}

theorem answer_eq_error_iff :
    arena.answer addition = .error fault ↔ arena.add addition = .error fault := by
  rw [answer]
  cases arena.add addition <;> simp [Except.map]

/-- An addition is refused at an input that is unknown, and then changes nothing. -/
theorem cases_of_add_error (refused : arena.add addition = .error fault) :
    (∃ input ∈ (addition.expression arena).inputs, arena.get? input = none
        ∧ fault = .unknownExpression input)
      ∧ arena.grow addition = arena := by
  refine ⟨?_, by rw [grow, refused]⟩
  rw [add_eq, permit] at refused
  split at refused
  · next input found =>
      cases refused
      exact ⟨input, List.mem_of_find?_eq_some found, by simpa using List.find?_some found, rfl⟩
  · cases refused

theorem granted_cons_of_error (refused : arena.add addition = .error fault) :
    arena.granted (addition :: additions) = arena.granted additions := by
  rw [granted, answers, answer, refused, (cases_of_add_error refused).2]
  rfl

theorem granted_cons_of_ok (added : arena.add addition = .ok (next, expr)) :
    arena.granted (addition :: additions) = expr :: next.granted additions := by
  rw [granted, answers, answer, grow, added]
  rfl

theorem growAll_cons_of_ok (added : arena.add addition = .ok (next, expr)) :
    arena.growAll (addition :: additions) = next.growAll additions := by
  rw [growAll, List.foldl_cons, grow, added]
  rfl

theorem growAll_cons_of_error (refused : arena.add addition = .error fault) :
    arena.growAll (addition :: additions) = arena.growAll additions := by
  rw [growAll, List.foldl_cons, (cases_of_add_error refused).2]
  rfl

theorem size_of_add_ok (added : arena.add addition = .ok (next, expr)) :
    next.size = arena.size + 1 := by
  obtain ⟨_, rfl, _⟩ := cases_of_add_ok added
  simp [size]

theorem size_growAll (arena : ExpressionArena) (additions : List Addition) :
    (arena.growAll additions).size = arena.size + (arena.granted additions).length := by
  induction additions generalizing arena with
  | nil => rfl
  | cons addition additions ih =>
      cases added : arena.add addition with
      | error fault => rw [growAll_cons_of_error added, granted_cons_of_error added, ih]
      | ok outcome =>
          rw [growAll_cons_of_ok added, granted_cons_of_ok added, ih, size_of_add_ok added,
            List.length_cons]
          omega

/-- Names are given one after the other, from the size of the arena on. -/
theorem granted_eq (arena : ExpressionArena) (additions : List Addition) :
    arena.granted additions =
      (List.range' arena.size (arena.granted additions).length).map
        fun place => ⟨UInt32.ofNat place⟩ := by
  induction additions generalizing arena with
  | nil => rfl
  | cons addition additions ih =>
      cases added : arena.add addition with
      | error fault => rw [granted_cons_of_error added, ← ih]
      | ok outcome =>
          have restEq := ih outcome.1
          rw [size_of_add_ok added] at restEq
          rw [granted_cons_of_ok added, List.length_cons, List.range'_succ, List.map_cons, ← restEq,
            (cases_of_add_ok added).2.2]

/-- As long as the names last, they are the places of the expressions. -/
theorem map_index_granted (bounded : (arena.growAll additions).size ≤ 2 ^ 32) :
    ((arena.granted additions).map fun name => name.index.toNat) =
      List.range' arena.size (arena.granted additions).length := by
  rw [size_growAll] at bounded
  rw [granted_eq, List.map_map, List.length_map, List.length_range']
  apply (List.map_congr_left _).trans (List.map_id _)
  intro place member
  obtain ⟨offset, offsetLt, rfl⟩ := List.mem_range'.mp member
  have placeLt : arena.size + 1 * offset < UInt32.size := by
    rw [UInt32.size]
    omega
  exact UInt32.toNat_ofNat_of_lt' placeLt

/-- Every expression of the arena has the same place in the other one. -/
def KeptIn (arena next : ExpressionArena) : Prop :=
  ∀ place < arena.size, next.expressions[place]? = arena.expressions[place]?

namespace KeptIn

theorem refl (arena : ExpressionArena) : arena.KeptIn arena :=
  fun _ _ => rfl

theorem trans {last : ExpressionArena} (kept : arena.KeptIn next) (keptOn : next.KeptIn last) :
    arena.KeptIn last := by
  intro place placeLt
  have found : next.expressions[place]? = some arena.expressions[place] := by
    rw [kept place placeLt, Array.getElem?_eq_getElem placeLt]
  rw [keptOn place (Array.getElem?_eq_some_iff.mp found).1, kept place placeLt]

theorem grow (arena : ExpressionArena) (addition : Addition) :
    arena.KeptIn (arena.grow addition) := by
  rcases arena.cases_of_grow addition with same | ⟨_, grownEq⟩
  · rw [same]
    exact refl arena
  · rw [grownEq]
    intro place placeLt
    exact Array.getElem?_push_lt placeLt ▸ (Array.getElem?_eq_getElem placeLt).symm

theorem growAll (arena : ExpressionArena) (additions : List Addition) :
    arena.KeptIn (arena.growAll additions) := by
  induction additions generalizing arena with
  | nil => exact refl arena
  | cons addition additions ih => exact (grow arena addition).trans (ih (arena.grow addition))

variable (kept : arena.KeptIn next)

include kept

theorem get?_eq (old : expr.index.toNat < arena.size) : next.get? expr = arena.get? expr :=
  kept expr.index.toNat old

/-- An old expression is computed from old ones, so it unfolds as before. -/
theorem unfold_eq (earlier : arena.InputsEarlier) (old : expr.index.toNat < arena.size)
    (levels : Nat) : next.unfold levels expr = arena.unfold levels expr := by
  induction levels generalizing expr with
  | zero => rfl
  | succ levels ih =>
      have inputsEq : (arena.inputs expr).flatMap (next.unfold levels) =
          (arena.inputs expr).flatMap (arena.unfold levels) :=
        List.flatMap_congr fun input feeds =>
          ih (Nat.lt_trans (earlier.index_lt_of_feeds feeds) old)
      rw [unfold, unfold, varies, reads, inputs, kept.get?_eq old, ← varies, ← reads, ← inputs,
        inputsEq]

theorem collect_eq (earlier : arena.InputsEarlier) (nextEarlier : next.InputsEarlier)
    (old : expr.index.toNat < arena.size) : next.collect expr = arena.collect expr :=
  nextEarlier.acyclic.collect_congr earlier.acyclic (kept.unfold_eq earlier old)

end KeptIn

end ExpressionArena

namespace Dataset

variable {dataset : Dataset} {stages : StageId → Option Stage} {arena next : ExpressionArena}

/-- The expressions that the owners evaluate on the device of the dataset are among the first
ones. -/
def EvaluatesWithin (dataset : Dataset) (stages : StageId → Option Stage) (size : Nat) : Prop :=
  ∀ owner ∈ dataset.owners, ∀ stage, stages owner = some stage →
    ∀ expr ∈ stage.expressions.on dataset.kind.device, expr.index.toNat < size

/-- A collection works on the same declarations if the expressions of the owners collect the
same. -/
theorem declarations_congr_of_collect
    (sameCollect : ∀ owner ∈ dataset.owners, ∀ stage, stages owner = some stage →
      ∀ expr ∈ stage.expressions.on dataset.kind.device, next.collect expr = arena.collect expr) :
    dataset.declarations stages next = dataset.declarations stages arena := by
  rw [declarations, declarations]
  cases found : dataset.ownerStages stages with
  | error fault => rfl
  | ok owners =>
      have requiredEq : owners.flatMap (fun owner =>
            Declaration.required next dataset.kind.device owner.1 owner.2) =
          owners.flatMap fun owner =>
            Declaration.required arena dataset.kind.device owner.1 owner.2 := by
        apply List.flatMap_congr
        rintro ⟨owner, stage⟩ member
        obtain ⟨isOwner, known⟩ := (mem_ownerStages_iff found).mp member
        have collectedEq : (stage.expressions.on dataset.kind.device).flatMap next.collect =
            (stage.expressions.on dataset.kind.device).flatMap arena.collect :=
          List.flatMap_congr (sameCollect owner isOwner stage known)
        exact congrArg (fun accesses => stage.declared.map (Declaration.mk owner ·)
          ++ accesses.map (Declaration.mk owner <| .always ·)) collectedEq
      exact congrArg (fun required => Except.ok (required
        ++ owners.flatMap fun owner => Declaration.optional owner.1 owner.2)) requiredEq

/-- An analysis asks an arena for nothing but what the expressions of the owners collect. -/
theorem analyze_congr_of_collect
    (sameCollect : ∀ owner ∈ dataset.owners, ∀ stage, stages owner = some stage →
      ∀ expr ∈ stage.expressions.on dataset.kind.device, next.collect expr = arena.collect expr)
    (options : AnalysisOptions) :
    dataset.analyze stages next options = dataset.analyze stages arena options := by
  have declarationsEq : dataset.markStale.declarations stages next =
      dataset.markStale.declarations stages arena := declarations_congr_of_collect sameCollect
  have retableEq : dataset.markStale.retable stages next options =
      dataset.markStale.retable stages arena options := by
    rw [retable, retable, collect, collect, declarationsEq]
  rw [analyze, analyze, retableEq]

end Dataset

namespace ExpressionArena

/-- Take any arena that was filled by additions, and any further additions.  Those that succeed
are given the names that come after the names in the arena, without gaps.  Those that fail name
an input that is unknown, and change nothing.  Inputs come before what is computed from them,
and every expression of the arena is the same afterwards, and so is what its walk collects,
in full or in part.  An analysis of a dataset whose owners evaluate only such expressions
takes the same course before and after. -/
theorem additions_keep_expressions (additions more : List Addition)
    (bounded : ((growAll {} additions).growAll more).size < 2 ^ 32) :
    let arena := growAll {} additions
    let grown := arena.growAll more
    ((arena.granted more).map fun name => name.index.toNat) =
        List.range' arena.size (arena.granted more).length
      ∧ grown.size = arena.size + (arena.granted more).length
      ∧ (∀ first addition last, more = first ++ addition :: last →
        let current := arena.growAll first
        ∀ fault, current.answer addition = .error fault →
          fault.category = .notFound
            ∧ (∃ input ∈ (addition.expression current).inputs, current.get? input = none
              ∧ fault = .unknownExpression input)
            ∧ current.grow addition = current)
      ∧ grown.InputsEarlier
      ∧ (∀ expr : ExpressionId, expr.index.toNat < arena.size →
        grown.get? expr = arena.get? expr
          ∧ grown.collect expr = arena.collect expr
          ∧ ∀ count, grown.collectFirst count expr = arena.collectFirst count expr)
      ∧ ∀ (dataset : Dataset) (stages : StageId → Option Stage) (options : AnalysisOptions),
        dataset.EvaluatesWithin stages arena.size →
          dataset.analyze stages grown options = dataset.analyze stages arena options := by
  intro arena grown
  have earlier : arena.InputsEarlier := InputsEarlier.empty.growAll additions
  have grownEarlier : grown.InputsEarlier := earlier.growAll more
  have kept : arena.KeptIn grown := KeptIn.growAll arena more
  have collectEq (expr : ExpressionId) (old : expr.index.toNat < arena.size) :
      grown.collect expr = arena.collect expr := kept.collect_eq earlier grownEarlier old
  refine ⟨map_index_granted (Nat.le_of_lt bounded), size_growAll arena more, ?_, grownEarlier,
    ?_, ?_⟩
  · intro first addition last _ current fault failed
    obtain ⟨unknown, same⟩ := cases_of_add_error (answer_eq_error_iff.mp failed)
    have category : fault.category = .notFound := by
      obtain ⟨_, _, _, rfl⟩ := unknown
      rfl
    exact ⟨category, unknown, same⟩
  · intro expr old
    refine ⟨kept.get?_eq old, collectEq expr old, ?_⟩
    intro count
    rw [grownEarlier.acyclic.collectFirst_eq_take, earlier.acyclic.collectFirst_eq_take,
      collectEq expr old]
  · intro dataset stages options evaluates
    apply Dataset.analyze_congr_of_collect
    intro owner isOwner stage known expr evaluated
    exact collectEq expr (evaluates owner isOwner stage known expr evaluated)

/-- A scaled age is put to further use, next to an expression whose second input is unknown.
The two that succeed get the next two names, and the owner that evaluates the scaled age finds
the same. -/
theorem additions_keep_expressions_scaled :
    let additions : List Addition :=
      [.current .age, .computed "unknown" [⟨7⟩], .constant "scale", .computed "scaled" [⟨0⟩, ⟨1⟩]]
    let more : List Addition :=
      [.verbatim ⟨"squared", true, [⟨2⟩, ⟨2⟩], [.read .size]⟩, .computed "ahead" [⟨0⟩, ⟨4⟩],
        .source .color]
    let arena := growAll {} additions
    let grown := arena.growAll more
    let owner : Stage := { kind := .update, expressions := { cpu := [⟨4⟩], gpu := [⟨2⟩] } }
    let stages (id : StageId) : Option Stage := if id = ⟨0⟩ then some owner else none
    let dataset : Dataset := { id := ⟨0⟩, kind := .particle, owners := [⟨0⟩] }
    grown.size < 2 ^ 32
      ∧ arena.granted more = [⟨3⟩, ⟨4⟩]
      ∧ (arena.granted more).map (fun name => name.index.toNat) = [3, 4]
      ∧ (arena.growAll [.verbatim ⟨"squared", true, [⟨2⟩, ⟨2⟩], [.read .size]⟩]).answer
        (.computed "ahead" [⟨0⟩, ⟨4⟩]) = .error (.unknownExpression ⟨4⟩)
      ∧ grown.collect ⟨2⟩ = arena.collect ⟨2⟩ ∧ arena.collect ⟨2⟩ = [.read .age]
      ∧ dataset.EvaluatesWithin stages arena.size
      ∧ dataset.analyze stages grown {} = dataset.analyze stages arena {}
      ∧ (dataset.analyze stages arena {}).answer = .ok ⟨2, 1⟩ := by
  intro additions more arena grown owner stages dataset
  have bounded : grown.size < 2 ^ 32 := by decide
  have grantedEq : arena.granted more = [⟨3⟩, ⟨4⟩] := by decide
  have keep := additions_keep_expressions additions more bounded
  have evaluates : dataset.EvaluatesWithin stages arena.size := by
    intro id isOwner stage known expr evaluated
    obtain rfl : id = ⟨0⟩ := by simpa [dataset] using isOwner
    cases known
    obtain rfl : expr = ⟨2⟩ := List.mem_singleton.mp evaluated
    decide
  refine ⟨bounded, grantedEq, ?_, by decide, (keep.2.2.2.2.1 ⟨2⟩ (by decide)).2.1, by decide,
    evaluates, keep.2.2.2.2.2 dataset stages {} evaluates, by decide⟩
  rw [keep.1, grantedEq]
  decide

end ExpressionArena

end AttributeFlow
