import AttributeFlow.Fault

/-!
# The table of accesses

The table holds one row for each pair of a stage and an attribute that the
stage touches, with the union of the modes it is touched in.  Rows keep the
order in which their pairs were first merged.

Beside the rows stands an index that lists, for each attribute, the numbers of
its rows; attributes keep the order in which they were first seen.  Both views
of the table, from attributes to stages and from stages to attributes, are read
off the same rows.
-/

namespace AttributeFlow

structure AccessRow where
  stage : StageId
  attr : Attribute
  mode : Mode
  deriving DecidableEq

namespace AccessRow

def isFor (attr : Attribute) (stage : StageId) (row : AccessRow) : Bool :=
  row.stage == stage && row.attr == attr

def widen (mode : Mode) (row : AccessRow) : AccessRow :=
  { row with mode := row.mode ∪ mode }

end AccessRow

/-- Who touches which attributes of a dataset. -/
structure AccessTable where
  rows : List AccessRow := []
  slots : List (Attribute × List Nat) := []
  deriving DecidableEq

namespace AccessTable

def size (table : AccessTable) : Nat :=
  table.rows.length

/-- The attributes that are touched, in the order they were first seen. -/
def attributes (table : AccessTable) : List Attribute :=
  table.slots.map Prod.fst

/-- The number of the row of an attribute and a stage. -/
def cell? (table : AccessTable) (attr : Attribute) (stage : StageId) : Option Nat :=
  table.rows.findIdx? (AccessRow.isFor attr stage)

def slot? (table : AccessTable) (attr : Attribute) : Option Nat :=
  table.slots.findIdx? fun (name, _) => name == attr

/-- The mode of the row of a number; a number without a row has no mode. -/
def rowMode (table : AccessTable) (row : Nat) : Mode :=
  (table.rows[row]?).elim ∅ AccessRow.mode

/-- The mode of an attribute in a stage; empty if the stage never touches it. -/
def modeAt (table : AccessTable) (attr : Attribute) (stage : StageId) : Mode :=
  (table.cell? attr stage).elim ∅ table.rowMode

def rowsOf (table : AccessTable) (attr : Attribute) : List Nat :=
  ((table.slot? attr).bind (table.slots[·]?)).elim [] Prod.snd

def unionMode (table : AccessTable) (attr : Attribute) : Mode :=
  (table.rowsOf attr).foldl (fun union row => union ∪ table.rowMode row) ∅

def contains (table : AccessTable) (attr : Attribute) : Bool :=
  (table.slot? attr).isSome

def byAttribute (table : AccessTable) : List (Attribute × List (StageId × Mode)) :=
  table.slots.map fun (attr, rows) =>
    (attr, rows.filterMap fun row =>
      (table.rows[row]?).map fun found => (found.stage, found.mode))

def ofStage (table : AccessTable) (stage : StageId) : List Access :=
  (table.rows.filter fun row => row.stage == stage).map fun row => ⟨row.attr, row.mode⟩

def unions (table : AccessTable) : List Access :=
  table.attributes.map fun attr => ⟨attr, table.unionMode attr⟩

/-- Enter the number of a new row under its attribute, which goes to the end if
it is new as well. -/
def enterSlot (attr : Attribute) (row : Nat) :
    List (Attribute × List Nat) → List (Attribute × List Nat)
  | [] => [(attr, [row])]
  | (name, rows) :: rest =>
      if name = attr then (name, rows ++ [row]) :: rest
      else (name, rows) :: enterSlot attr row rest

def append (table : AccessTable) (row : AccessRow) : AccessTable :=
  { rows := table.rows ++ [row]
    slots := enterSlot row.attr table.size table.slots }

/-- Merge an access of a stage into the table, and say whether the table changed.
An access in the empty mode is refused. -/
def merge (table : AccessTable) (stage : StageId) (access : Access) :
    Except Fault (AccessTable × Bool) :=
  if access.mode.isEmpty then
    .error (.emptyAccess access.attr stage)
  else
    match table.cell? access.attr stage with
    | some row =>
        if table.rowMode row ∪ access.mode = table.rowMode row then
          .ok (table, false)
        else
          .ok ({ table with rows := table.rows.modify row (AccessRow.widen access.mode) }, true)
    | none => .ok (table.append ⟨stage, access.attr, access.mode⟩, true)

/-- Whether two tables hold the same facts, in whatever order they were merged. -/
def sameFacts (first second : AccessTable) : Bool :=
  first.size == second.size
    && first.rows.all fun row => second.modeAt row.attr row.stage == row.mode

/-- Exactly the empty mode is refused. -/
theorem merge_eq_error_iff {table : AccessTable} {stage : StageId} {access : Access}
    {fault : Fault} :
    table.merge stage access = .error fault ↔
      access.mode = ∅ ∧ fault = .emptyAccess access.attr stage := by
  by_cases modeEmpty : access.mode = ∅
  · simp [merge, Mode.isEmpty, modeEmpty, eq_comm]
  · simp only [merge, Mode.isEmpty, beq_iff_eq, modeEmpty, if_false, false_and, iff_false]
    split
    · split <;> simp
    · simp

end AccessTable

end AttributeFlow
