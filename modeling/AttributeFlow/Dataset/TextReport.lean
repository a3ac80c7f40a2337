import AttributeFlow.Dataset

/-!
# The text report

The text report of a dataset lists, owner by owner, the attributes that each
stage touches, and then the shared and the local attributes of the placement
plan.  Owners that touch nothing and empty sections are left out.
-/

namespace AttributeFlow

namespace Dataset

def reportLine (indent : Nat) (words : List String) : String :=
  String.ofList (List.replicate indent '\t') ++ String.intercalate " " words ++ "\n"

/-- The lines of one owner; none if it touches no attribute. -/
def reportOwner (dataset : Dataset) (stages : StageId → Option Stage) (owner : StageId) :
    List String :=
  let accesses := dataset.table.ofStage owner
  if accesses.isEmpty then []
  else
    let kind := (stages owner).elim "<missing>" fun stage => stage.kind.name
    reportLine 1 ["Stage", owner.display, kind]
      :: accesses.map fun access =>
        reportLine 2 [access.attr.name, access.attr.valueType.name, access.mode.display]

/-- A section with its title; nothing if it has no lines. -/
def reportSection (title : String) (lines : List String) : List String :=
  if lines.isEmpty then [] else reportLine 0 ["---", title, "---"] :: lines

def textReport (dataset : Dataset) (stages : StageId → Option Stage) : String :=
  String.join (
    reportLine 0
        ["Attributes for data", dataset.id.display, "(" ++ dataset.kind.name ++ ")"]
      :: dataset.owners.flatMap (dataset.reportOwner stages)
      ++ reportSection "stored attributes"
        (dataset.plan.shared.map fun (attr, key) =>
          reportLine 2 [attr.name, attr.valueType.name, Numeral.hexadecimal 8 key.toNat])
      ++ reportSection "local attributes"
        (dataset.plan.stageLocals.map fun attr =>
          reportLine 2 [attr.name, attr.valueType.name]))

end Dataset

end AttributeFlow
