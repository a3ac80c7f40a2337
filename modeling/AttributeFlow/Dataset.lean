import AttributeFlow.AccessTable
import AttributeFlow.Reply
import AttributeFlow.Stage

/-!
# Datasets

A dataset is shared by the stages that own it.  Owners keep the order in which
they came, because the place of an owner is its place in the keys of shared
attributes.  The table of accesses and the placement plan are derived from the
owners by an analysis; the dataset remembers whether its last analysis still
stands.
-/

namespace AttributeFlow

/-- The kind of dataset on a feed; an empty feed has none. -/
def Feed.kind (feed : Feed) : Except Fault DatasetKind :=
  match feed.kind? with
  | some kind => .ok kind
  | none => .error .emptyFeed

/-- The elements that a group of stages works on, and what is known of their
attributes. -/
structure Dataset where
  id : DatasetId
  kind : DatasetKind
  /-- The stages that use the dataset, in the order they came. -/
  owners : List StageId := []
  table : AccessTable := {}
  plan : PlacementPlan := {}
  /-- Whether the last analysis succeeded and still stands. -/
  analyzed : Bool := false
  deriving DecidableEq

namespace Dataset

def create (id : DatasetId) (feed : Feed) : Except Fault Dataset := do
  let kind ← feed.kind
  return { id, kind }

def markStale (dataset : Dataset) : Dataset :=
  { dataset with analyzed := false }

def place? (dataset : Dataset) (stage : StageId) : Option Nat :=
  dataset.owners.idxOf? stage

/-- Make a stage the last owner, and say whether it was no owner before. -/
def addOwner (dataset : Dataset) (stage : StageId) : Reply Dataset Bool :=
  if dataset.owners.contains stage then
    { state := dataset, answer := false }
  else
    let owners := dataset.owners ++ [stage]
    { state := { dataset with owners }.markStale
      events :=
        if OwnerKey.capacity < owners.length then [.ownersBeyondKey dataset.id owners.length] else []
      answer := true }

/-- Take a stage out of the owners, and say whether it was one. -/
def dropOwner (dataset : Dataset) (stage : StageId) : Reply Dataset Bool :=
  if dataset.owners.contains stage then
    { state := { dataset with owners := dataset.owners.erase stage }.markStale
      answer := true }
  else
    { state := dataset, answer := false }

/-- Merge one access into the table, and say whether the table changed.  The last
analysis goes on to stand. -/
def addAccess (dataset : Dataset) (stage : StageId) (access : Access) :
    Except Fault (Dataset × Bool) := do
  let (table, changed) ← dataset.table.merge stage access
  return ({ dataset with table }, changed)

def unionMode (dataset : Dataset) (attr : Attribute) : Mode :=
  dataset.table.unionMode attr

def modeAt (dataset : Dataset) (attr : Attribute) (stage : StageId) : Mode :=
  dataset.table.modeAt attr stage

def uses (dataset : Dataset) (attr : Attribute) : Bool :=
  !(dataset.unionMode attr).isEmpty

def usesAt (dataset : Dataset) (attr : Attribute) (stage : StageId) : Bool :=
  !(dataset.modeAt attr stage).isEmpty

def reads (dataset : Dataset) (attr : Attribute) : Bool :=
  (dataset.unionMode attr).reads

def readsAt (dataset : Dataset) (attr : Attribute) (stage : StageId) : Bool :=
  (dataset.modeAt attr stage).reads

def writes (dataset : Dataset) (attr : Attribute) : Bool :=
  (dataset.unionMode attr).writes

def writesAt (dataset : Dataset) (attr : Attribute) (stage : StageId) : Bool :=
  (dataset.modeAt attr stage).writes

def touchesCurrent (dataset : Dataset) (attr : Attribute) : Bool :=
  (dataset.unionMode attr).meets .readWriteCurrent

def readsSource (dataset : Dataset) (attr : Attribute) : Bool :=
  (dataset.unionMode attr).meets .readSource

/-- A dataset is created with nothing but its name and its kind. -/
theorem exists_kind_of_create {id : DatasetId} {feed : Feed} {dataset : Dataset}
    (created : create id feed = .ok dataset) : ∃ kind, dataset = { id, kind } := by
  rw [create] at created
  cases kindEq : feed.kind with
  | error fault =>
      rw [kindEq] at created
      cases created
  | ok kind =>
      rw [kindEq] at created
      cases created
      exact ⟨kind, rfl⟩

theorem mem_owners_addOwner (dataset : Dataset) (stage : StageId) :
    stage ∈ (dataset.addOwner stage).state.owners := by
  unfold addOwner
  split
  next present => exact List.contains_iff_mem.mp present
  next => simp [markStale]

theorem answer_addOwner (dataset : Dataset) (stage : StageId) :
    (dataset.addOwner stage).answer = !dataset.owners.contains stage := by
  unfold addOwner
  split <;> simp_all

theorem answer_dropOwner (dataset : Dataset) (stage : StageId) :
    (dataset.dropOwner stage).answer = dataset.owners.contains stage := by
  unfold dropOwner
  split <;> simp_all

end Dataset

end AttributeFlow
