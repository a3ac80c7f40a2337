import AttributeFlow.Dataset
import AttributeFlow.ExpressionArena.Walk

/-!
# Collecting accesses

The accesses of a dataset are collected in passes.  Every pass takes the accesses
that hold when exactly the attributes of the table at its beginning are used,
and merges them.  A pass that changes nothing ends the collection.

All passes work on one list of declarations: for each owner the usages of the
stage and of its active operations, followed by the attributes that its
expressions on the device of the dataset depend on, and after all owners their
optional usages.  A table has at most one cell for each stage and attribute in
that list, which gives the limit of passes when none is set.
-/

namespace AttributeFlow

structure Declaration where
  stage : StageId
  usage : Usage
  deriving DecidableEq

namespace Declaration

def cell (declaration : Declaration) : StageId × Attribute :=
  (declaration.stage, declaration.usage.access.attr)

/-- The access of the stage, if it takes place with the given attributes used. -/
def resolve? (isUsed : Attribute → Bool) (declaration : Declaration) :
    Option (StageId × Access) :=
  (declaration.usage.resolve? isUsed).map (declaration.stage, ·)

/-- The declarations of a stage, apart from its optional ones: its declared
usages, then the accesses of its expressions on a device. -/
def required (arena : ExpressionArena) (device : Device) (id : StageId) (stage : Stage) :
    List Declaration :=
  stage.declared.map (⟨id, ·⟩)
    ++ ((stage.expressions.on device).flatMap arena.collect).map (⟨id, .always ·⟩)

def optional (id : StageId) (stage : Stage) : List Declaration :=
  stage.optional.map (⟨id, ·⟩)

def cells (declarations : List Declaration) : List (StageId × Attribute) :=
  (declarations.map cell).eraseDups

/-- A number of passes that collection does not need to exceed: one for each known
flag of each cell, and one that changes nothing. -/
def passLimit (declarations : List Declaration) : Nat :=
  3 * (cells declarations).length + 1

end Declaration

/-- What came of merging a list of accesses: the table, the accesses that changed
it in order, and what stopped the merging, if anything did. -/
structure MergeRun where
  table : AccessTable
  changes : List (StageId × Access) := []
  fault? : Option Fault := none

namespace AccessTable

/-- Merge accesses one after the other, up to the first that is refused. -/
def mergeAll (table : AccessTable) : List (StageId × Access) → MergeRun
  | [] => { table }
  | (stage, access) :: rest =>
      match table.merge stage access with
      | .error fault => { table, fault? := some fault }
      | .ok (_, false) => table.mergeAll rest
      | .ok (next, true) =>
          let later := next.mergeAll rest
          { later with changes := (stage, access) :: later.changes }

/-- The accesses that take place with exactly the attributes of the table used. -/
def resolve (table : AccessTable) (declarations : List Declaration) :
    List (StageId × Access) :=
  declarations.filterMap (Declaration.resolve? table.contains)

end AccessTable

structure Effort where
  /-- The passes, with the last one that changed nothing. -/
  passes : Nat := 0
  merges : Nat := 0
  deriving DecidableEq

/-- Pass over the declarations until a pass changes nothing, a merge is refused,
or the number of passes still allowed is used up. -/
def collectPasses (dataset : DatasetId) (declarations : List Declaration) (limit : Nat) :
    Nat → AccessTable → Effort → Reply AccessTable (Except Fault Effort)
  | 0, table, _ => { state := table, answer := .error (.notConverged dataset limit) }
  | allowed + 1, table, effort =>
      let resolved := table.resolve declarations
      let run := table.mergeAll resolved
      let merges := run.changes.map fun (stage, access) => Event.merged stage access
      match run.fault? with
      | some fault => { state := run.table, events := merges, answer := .error fault }
      | none =>
          let changed := !run.changes.isEmpty
          let effort : Effort :=
            { passes := effort.passes + 1, merges := effort.merges + run.changes.length }
          let events := merges ++ [.passCompleted dataset effort.passes resolved.length
            run.table.size changed]
          if changed then
            let later := collectPasses dataset declarations limit allowed run.table effort
            { later with events := events ++ later.events }
          else
            { state := run.table, events, answer := .ok effort }

namespace Dataset

/-- The owners with their stages; the first owner that does not exist is
reported. -/
def ownerStages (dataset : Dataset) (stages : StageId → Option Stage) :
    Except Fault (List (StageId × Stage)) :=
  dataset.owners.mapM fun owner =>
    match stages owner with
    | some stage => .ok (owner, stage)
    | none => .error (.missingOwner owner dataset.id)

def declarations (dataset : Dataset) (stages : StageId → Option Stage)
    (arena : ExpressionArena) : Except Fault (List Declaration) := do
  let owners ← dataset.ownerStages stages
  return owners.flatMap (fun (id, stage) =>
      Declaration.required arena dataset.kind.device id stage)
    ++ owners.flatMap (fun (id, stage) => Declaration.optional id stage)

/-- Collect the accesses of the owners into an empty table.  A limit of no passes
at all is exceeded before any owner is looked up. -/
def collect (dataset : Dataset) (stages : StageId → Option Stage)
    (arena : ExpressionArena) (maxPasses : Option UInt64) :
    Reply AccessTable (Except Fault Effort) :=
  if maxPasses = some 0 then
    { state := {}, answer := .error (.notConverged dataset.id 0) }
  else
    match dataset.declarations stages arena with
    | .error fault => { state := {}, answer := .error fault }
    | .ok declarations =>
        let limit := maxPasses.elim (Declaration.passLimit declarations) UInt64.toNat
        collectPasses dataset.id declarations limit limit {} {}

end Dataset

end AttributeFlow
