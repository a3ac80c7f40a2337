import AttributeFlow.AccessTable
import AttributeFlow.PlacementPlan

/-!
# Classification

Classification decides for each attribute of a table whether its value must be
kept in shared storage.  For each attribute it draws up a profile of who touches
it: which kinds of stages do, whether a value is produced at initialization, and
the key of reads and writes.

A row whose mode is exactly a read of the source value has no part in the
profile, because that read sees a value from before its stage.  Rows of stages
that initialize have no bits in the key; their writes only count as producing a
value.
-/

namespace AttributeFlow

/-- Who touches an attribute. -/
structure AccessProfile where
  key : OwnerKey := 0
  touchedAtInit : Bool := false
  touchedInUpdate : Bool := false
  touchedInOutput : Bool := false
  readInUpdate : Bool := false
  writtenInUpdate : Bool := false
  writtenAtInit : Bool := false
  /-- Initialization writes it of its own accord. -/
  selfInitialized : Bool := false
  deriving DecidableEq

namespace AccessProfile

def note (profile : AccessProfile) (kind : StageKind) (mode : Mode) : AccessProfile :=
  match kind with
  | .init =>
      { profile with
        touchedAtInit := true
        writtenAtInit := profile.writtenAtInit || mode.writes }
  | .update =>
      { profile with
        touchedInUpdate := true
        readInUpdate := profile.readInUpdate || mode.reads
        writtenInUpdate := profile.writtenInUpdate || mode.writes }
  | .output => { profile with touchedInOutput := true }

/-- The two bits of an owner, in the lowest place. -/
def ownerBits (kind : StageKind) (mode : Mode) : OwnerKey :=
  (if mode.reads then 1 else 0) ||| (if mode.writes && kind == .update then 2 else 0)

def mark (profile : AccessProfile) (place : Nat) (kind : StageKind) (mode : Mode) :
    AccessProfile :=
  { profile with key := profile.key ||| ownerBits kind mode <<< (2 * place) }

def onlyInit (profile : AccessProfile) : Bool :=
  !profile.touchedInUpdate && !profile.touchedInOutput

def onlyUpdate (profile : AccessProfile) : Bool :=
  !profile.touchedAtInit && !profile.touchedInOutput

def onlyOutput (profile : AccessProfile) : Bool :=
  !profile.touchedAtInit && !profile.touchedInUpdate

/-- Whether stages of a single kind touch the attribute, in a way that hands
nothing to another stage. -/
def isUnshared (profile : AccessProfile) : Bool :=
  (profile.onlyUpdate && !profile.readInUpdate) || profile.onlyInit
    || (!profile.selfInitialized
      && ((profile.onlyUpdate && !profile.writtenInUpdate) || profile.onlyOutput))

/-- Whether some stage, or initialization itself, produces a value. -/
def isProduced (profile : AccessProfile) : Bool :=
  profile.selfInitialized || profile.writtenAtInit || profile.key.anyWrites

/-- Whether the value can stay within one stage: nobody reads it, or it is not
shared between stages, or nobody produces it. -/
def isLocal (profile : AccessProfile) : Bool :=
  !profile.key.anyReads || profile.isUnshared || !profile.isProduced

def placement (profile : AccessProfile) : Placement :=
  if profile.isLocal then .stageLocal else .shared profile.key

def add (attr : Attribute) (owners : List StageId) (kindOf : StageId → Option StageKind)
    (profile : AccessProfile) (row : StageId × Mode) : Except Fault AccessProfile :=
  let (stage, mode) := row
  if mode.isEmpty then
    .error (.emptyCell attr stage)
  else if mode = .readSource then
    .ok profile
  else
    match kindOf stage with
    | none => .error (.unknownStage stage)
    | some .init => .ok (profile.note .init mode)
    | some kind =>
        match owners.idxOf? stage with
        | none => .error (.notAnOwner stage)
        | some place => .ok ((profile.note kind mode).mark place kind mode)

def ofRows (attr : Attribute) (owners : List StageId)
    (kindOf : StageId → Option StageKind) (rows : List (StageId × Mode)) :
    Except Fault AccessProfile :=
  rows.foldlM (add attr owners kindOf) { selfInitialized := attr.isSelfInitialized }

end AccessProfile

structure Verdict where
  attr : Attribute
  key : OwnerKey
  placement : Placement
  deriving DecidableEq

/-- A run of classification: the verdicts it reached, and what stopped it before
the last attribute, if anything did. -/
structure Classification where
  verdicts : List Verdict := []
  fault? : Option Fault := none

namespace Classification

/-- Reach a verdict on each attribute in turn, up to the first fault. -/
def ofViews (owners : List StageId) (kindOf : StageId → Option StageKind) :
    List (Attribute × List (StageId × Mode)) → Classification
  | [] => {}
  | (attr, rows) :: rest =>
      match AccessProfile.ofRows attr owners kindOf rows with
      | .error fault => { fault? := some fault }
      | .ok profile =>
          let later := ofViews owners kindOf rest
          { later with
            verdicts := ⟨attr, profile.key, profile.placement⟩ :: later.verdicts }

/-- Classify every attribute of a table.  Nothing is looked at if there are more
owners than a key can tell apart. -/
def ofTable (table : AccessTable) (owners : List StageId)
    (kindOf : StageId → Option StageKind) : Classification :=
  if OwnerKey.capacity < owners.length then { fault? := some (.tooManyOwners owners.length) }
  else ofViews owners kindOf table.byAttribute

/-- The plan of a run that reached the last attribute. -/
def plan (run : Classification) : Except Fault PlacementPlan :=
  match run.fault? with
  | some fault => .error fault
  | none => .ok ⟨run.verdicts.map fun verdict => (verdict.attr, verdict.placement)⟩

end Classification

end AttributeFlow
