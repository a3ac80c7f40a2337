import AttributeFlow.Forms.ExpressionArena
import AttributeFlow.Forms.Report
import AttributeFlow.Proofs.ListLookups

/-!
# Forms are read back

Reading the form of a value gives back the value.  A record is written with each of its
fields once, so all of them are found again, whatever they hold.  Every form of this
library is lawful in this way except that of a dataset, which keeps only what
identifies it.
-/

namespace AttributeFlow

open JsonForm

namespace Json

variable {members : List (String × Json)}

/-- Where names are distinct, only one member has the name of a member. -/
theorem filter_eq_singleton (distinct : (members.map Prod.fst).Nodup) {member : String × Json}
    (listed : member ∈ members) :
    (members.filter fun (key, _) => key == member.1) = [member] := by
  induction members with
  | nil => cases listed
  | cons first members ih =>
      rw [List.map_cons, List.nodup_cons] at distinct
      rcases List.mem_cons.mp listed with rfl | later
      · have noneLater : (members.filter fun (key, _) => key == member.1) = [] := by
          rw [List.filter_eq_nil_iff]
          intro other otherListed sameName
          rw [beq_iff_eq] at sameName
          exact distinct.1 (sameName ▸ List.mem_map_of_mem otherListed)
        rw [List.filter_cons_of_pos (by simp), noneLater]
      · have notFirst : first.1 ≠ member.1 := fun sameName =>
          distinct.1 (sameName ▸ List.mem_map_of_mem later)
        rw [List.filter_cons_of_neg (by simpa using notFirst), ih distinct.2 later]

/-- The fields of a record are found, each under its name. -/
theorem fields?_record (distinct : (members.map Prod.fst).Nodup) :
    (record members).fields? (members.map Prod.fst) =
      some (members.map fun member => some member.2) := by
  have named : (members.map fun member => (some member.1, member.2)).mapM
      (fun member : Option String × Json => member.1.map (·, member.2)) = some members := by
    rw [List.mapM_map]
    exact (mapM_eq_some_map fun _ _ => rfl).trans (congrArg some (List.map_id members))
  rw [record, fields?, objectFields?, named, Option.bind_eq_bind, Option.bind_some, List.mapM_map]
  apply mapM_eq_some_map
  intro member listed
  dsimp only [Function.comp]
  rw [filter_eq_singleton distinct listed]

/-- A record with one member is the variant that its name says. -/
theorem bind_variant?_record {α : Type} {name : String} {content : Json}
    (read : String × Json → Option α) :
    (record [(name, content)]).variant?.bind read = read (name, content) :=
  rfl

theorem bind_fields?_record {α : Type} (distinct : (members.map Prod.fst).Nodup)
    (read : List (Option Json) → Option α) :
    ((record members).fields? (members.map Prod.fst)).bind read =
      read (members.map fun member => some member.2) := by
  rw [fields?_record distinct, Option.bind_some]

end Json

/-- What is written in a form is read back from it. -/
class LawfulForm (α : Type) [JsonForm α] : Prop where
  ofJson?_toJson : ∀ value : α, ofJson? (toJson value) = some value

/-- No value is written as `null`. -/
class NeverNull (α : Type) [JsonForm α] : Prop where
  toJson_ne_null : ∀ value : α, toJson value ≠ .null

namespace LawfulForm

variable {α : Type} [JsonForm α] [LawfulForm α]

@[simp]
theorem field?_toJson (value : α) : field? (some (toJson value)) = some value :=
  ofJson?_toJson value

@[simp]
theorem fieldOr?_toJson (default value : α) : fieldOr? default (some (toJson value)) = some value :=
  ofJson?_toJson value

instance : LawfulForm Bool := ⟨fun _ => rfl⟩

instance : LawfulForm String := ⟨fun _ => rfl⟩

instance : LawfulForm UInt32 where
  ofJson?_toJson value := by
    have below : value.toNat < UInt32.size := value.toNat_lt
    simp [ofJson?, toJson, Json.naturalBelow?, below]

instance : LawfulForm UInt64 where
  ofJson?_toJson value := by
    have below : value.toNat < UInt64.size := value.toNat_lt
    simp [ofJson?, toJson, Json.naturalBelow?, below]

instance {width : Nat} : LawfulForm (BitVec width) where
  ofJson?_toJson value := by
    have below : value.toNat < Nat.pow 2 width := value.isLt
    simp only [ofJson?, toJson, Json.naturalBelow?, if_pos below]
    simp

instance : NeverNull UInt64 := ⟨fun _ impossible => nomatch impossible⟩

instance : NeverNull StageKind := ⟨fun _ impossible => nomatch impossible⟩

instance [NeverNull α] : LawfulForm (Option α) where
  ofJson?_toJson
    | none => rfl
    | some value => by
        have notNull := NeverNull.toJson_ne_null value
        simp [ofJson?, toJson, ofJson?_toJson value]

instance : LawfulForm (List α) where
  ofJson?_toJson values := by
    simp only [ofJson?, toJson]
    rw [List.mapM_map]
    exact (mapM_eq_some_map fun value _ => ofJson?_toJson value).trans
      (congrArg some (List.map_id values))

instance : LawfulForm ValueType := ⟨fun value => by cases value <;> rfl⟩

instance : LawfulForm StageKind := ⟨fun kind => by cases kind <;> rfl⟩

instance : LawfulForm DatasetKind := ⟨fun kind => by cases kind <;> rfl⟩

instance : LawfulForm Space := ⟨fun space => by cases space <;> rfl⟩

instance : LawfulForm Feed where
  ofJson?_toJson
    | ⟨none⟩ | ⟨some .particle⟩ | ⟨some .spawnEvent⟩ => rfl

instance : LawfulForm StageId where
  ofJson?_toJson stage := congrArg (Option.map StageId.mk) (ofJson?_toJson stage.index)

instance : LawfulForm ExpressionId where
  ofJson?_toJson expr := congrArg (Option.map ExpressionId.mk) (ofJson?_toJson expr.index)

instance : LawfulForm DatasetId where
  ofJson?_toJson dataset := congrArg (Option.map DatasetId.mk) (ofJson?_toJson dataset.index)

instance : LawfulForm KindMask where
  ofJson?_toJson mask := congrArg (Option.map KindMask.mk) (ofJson?_toJson mask.bits)

instance : LawfulForm Mode where
  ofJson?_toJson mode := congrArg (Option.map Mode.mk) (ofJson?_toJson mode.bits)

instance : LawfulForm Attribute where
  ofJson?_toJson attr := (Json.bind_fields?_record (by simp) _).trans (by simp)

instance : LawfulForm Access where
  ofJson?_toJson access := (Json.bind_fields?_record (by simp) _).trans (by simp)

instance : LawfulForm Usage where
  ofJson?_toJson
    | .always access =>
        congrArg (Option.bind · fun found => some (Usage.always found)) (ofJson?_toJson access)
    | .whenUsed access trigger => by
        refine (Json.bind_variant?_record _).trans ?_
        change Option.bind (Json.fields? _ _) _ = _
        exact (Json.bind_fields?_record (by simp) _).trans (by simp)

instance : LawfulForm Operation where
  ofJson?_toJson operation := (Json.bind_fields?_record (by simp) _).trans (by simp)

instance : LawfulForm StageExpressions where
  ofJson?_toJson expressions := (Json.bind_fields?_record (by simp) _).trans (by simp)

instance : LawfulForm Stage where
  ofJson?_toJson stage := (Json.bind_fields?_record (by simp) _).trans (by simp)

instance : LawfulForm Expression where
  ofJson?_toJson expression := (Json.bind_fields?_record (by simp) _).trans (by simp)

instance : LawfulForm ExpressionArena where
  ofJson?_toJson arena := (Json.bind_fields?_record (by simp) _).trans (by simp)

-- Options that are written as an object are read field by field, like any other record.
instance : LawfulForm AnalysisOptions where
  ofJson?_toJson options := (Json.bind_fields?_record (by simp) _).trans (by simp)

instance : LawfulForm Placement where
  ofJson?_toJson
    | .stageLocal => rfl
    | .shared key => by
        refine (Json.bind_variant?_record _).trans ?_
        change Option.bind (Json.fields? _ _) _ = _
        exact (Json.bind_fields?_record (by simp) _).trans (by simp)

instance : LawfulForm OwnerReport where
  ofJson?_toJson report := (Json.bind_fields?_record (by simp) _).trans (by simp)

instance : LawfulForm SharedAttribute where
  ofJson?_toJson entry := (Json.bind_fields?_record (by simp) _).trans (by simp)

instance : LawfulForm DatasetReport where
  ofJson?_toJson report := (Json.bind_fields?_record (by simp) _).trans (by simp)

end LawfulForm

/-- Of a dataset its name, its kind and its owners are read back. -/
theorem ofJson?_toJson_dataset (dataset : Dataset) :
    (ofJson? (toJson dataset) : Option Dataset) =
      some { id := dataset.id, kind := dataset.kind, owners := dataset.owners } :=
  (Json.bind_fields?_record (by simp) _).trans (by simp)

end AttributeFlow
