import AttributeFlow.Proofs.OwnerKeyBits

/-!
# What a profile says about its rows

The profile of an attribute is drawn up row by row.  After each row it describes
the rows so far: every field, and every bit of the key, is set exactly if some
row has the kind and the flags that it stands for.  Rows that only read the
source value have no say in any of them.
-/

namespace AttributeFlow.AccessProfile

/-- Some row that is more than a read of the source value belongs to a stage of
known kind and is as wanted. -/
def Involves (kindOf : StageId → Option StageKind) (rows : List (StageId × Mode))
    (wanted : StageId → StageKind → Mode → Prop) : Prop :=
  ∃ stage mode kind, (stage, mode) ∈ rows ∧ mode ≠ .readSource ∧ kindOf stage = some kind
    ∧ wanted stage kind mode

/-- Every field of the profile means what it says of some rows of an attribute. -/
structure Describes (attr : Attribute) (owners : List StageId)
    (kindOf : StageId → Option StageKind) (profile : AccessProfile)
    (rows : List (StageId × Mode)) : Prop where
  touchedAtInit : profile.touchedAtInit = true ↔
    Involves kindOf rows fun _ kind _ => kind = .init
  touchedInUpdate : profile.touchedInUpdate = true ↔
    Involves kindOf rows fun _ kind _ => kind = .update
  touchedInOutput : profile.touchedInOutput = true ↔
    Involves kindOf rows fun _ kind _ => kind = .output
  readInUpdate : profile.readInUpdate = true ↔
    Involves kindOf rows fun _ kind mode => kind = .update ∧ mode.reads = true
  writtenInUpdate : profile.writtenInUpdate = true ↔
    Involves kindOf rows fun _ kind mode => kind = .update ∧ mode.writes = true
  writtenAtInit : profile.writtenAtInit = true ↔
    Involves kindOf rows fun _ kind mode => kind = .init ∧ mode.writes = true
  readBy : ∀ place, profile.key.ReadBy place ↔
    Involves kindOf rows fun stage kind mode =>
      kind ≠ .init ∧ owners.idxOf? stage = some place ∧ mode.reads = true
  writtenBy : ∀ place, profile.key.WrittenBy place ↔
    Involves kindOf rows fun stage kind mode =>
      kind = .update ∧ owners.idxOf? stage = some place ∧ mode.writes = true
  selfInitialized : profile.selfInitialized = attr.isSelfInitialized
  ownersKnown : ∀ stage mode, (stage, mode) ∈ rows → mode ≠ .readSource →
    ∃ kind, kindOf stage = some kind ∧ (kind ≠ .init → stage ∈ owners)

variable {attr : Attribute} {owners : List StageId} {kindOf : StageId → Option StageKind}
  {profile next : AccessProfile} {rows : List (StageId × Mode)} {stage : StageId} {mode : Mode}

theorem involves_concat {wanted : StageId → StageKind → Mode → Prop} :
    Involves kindOf (rows ++ [(stage, mode)]) wanted ↔
      Involves kindOf rows wanted
        ∨ (mode ≠ .readSource ∧ ∃ kind, kindOf stage = some kind ∧ wanted stage kind mode) := by
  constructor
  · rintro ⟨other, otherMode, kind, member, rest⟩
    rcases List.mem_append.mp member with early | last
    · exact Or.inl ⟨other, otherMode, kind, early, rest⟩
    · rw [List.mem_singleton, Prod.mk.injEq] at last
      obtain ⟨rfl, rfl⟩ := last
      exact Or.inr ⟨rest.1, kind, rest.2⟩
  · rintro (⟨other, otherMode, kind, member, rest⟩ | ⟨notSource, kind, rest⟩)
    · exact ⟨other, otherMode, kind, List.mem_append_left _ member, rest⟩
    · exact ⟨stage, mode, kind, by simp, notSource, rest⟩

/-- What adding a row does when it is not refused. -/
theorem cases_of_add_ok (added : add attr owners kindOf profile (stage, mode) = .ok next) :
    (mode = .readSource ∧ next = profile)
      ∨ (mode ≠ .readSource ∧ kindOf stage = some .init ∧ next = profile.note .init mode)
      ∨ (mode ≠ .readSource ∧ ∃ kind place, kind ≠ .init ∧ kindOf stage = some kind
        ∧ owners.idxOf? stage = some place
        ∧ next = (profile.note kind mode).mark place kind mode) := by
  simp only [add] at added
  split at added
  · cases added
  split at added
  · next isSource =>
      cases added
      exact Or.inl ⟨isSource, rfl⟩
  · next notSource =>
      right
      split at added
      · cases added
      · next kindEq =>
          cases added
          exact Or.inl ⟨notSource, kindEq, rfl⟩
      · next kind notInit kindEq =>
          right
          split at added
          · cases added
          · next place placeEq =>
              cases added
              exact ⟨notSource, kind, place, notInit, kindEq, placeEq, rfl⟩

theorem describes_start :
    Describes attr owners kindOf { selfInitialized := attr.isSelfInitialized } [] := by
  constructor <;> simp [Involves]

namespace Describes

/-- A row that only reads the source value changes nothing. -/
private theorem add_source (describes : Describes attr owners kindOf profile rows) :
    Describes attr owners kindOf profile (rows ++ [(stage, .readSource)]) := by
  have same (wanted : StageId → StageKind → Mode → Prop) :
      Involves kindOf (rows ++ [(stage, .readSource)]) wanted ↔ Involves kindOf rows wanted := by
    simp [involves_concat]
  refine ⟨?_, ?_, ?_, ?_, ?_, ?_, ?_, ?_, ?_, ?_⟩
  · rw [same, describes.touchedAtInit]
  · rw [same, describes.touchedInUpdate]
  · rw [same, describes.touchedInOutput]
  · rw [same, describes.readInUpdate]
  · rw [same, describes.writtenInUpdate]
  · rw [same, describes.writtenAtInit]
  · exact fun place => by rw [same, describes.readBy]
  · exact fun place => by rw [same, describes.writtenBy]
  · exact describes.selfInitialized
  · intro other otherMode member notSource
    rcases List.mem_append.mp member with early | last
    · exact describes.ownersKnown other otherMode early notSource
    · rw [List.mem_singleton, Prod.mk.injEq] at last
      exact absurd last.2 notSource

private theorem ownersKnown_concat (describes : Describes attr owners kindOf profile rows)
    {kind : StageKind} (kindEq : kindOf stage = some kind)
    (isOwner : kind ≠ .init → stage ∈ owners) :
    ∀ other otherMode, (other, otherMode) ∈ rows ++ [(stage, mode)] → otherMode ≠ .readSource →
      ∃ kind, kindOf other = some kind ∧ (kind ≠ .init → other ∈ owners) := by
  intro other otherMode member notSource
  rcases List.mem_append.mp member with early | last
  · exact describes.ownersKnown other otherMode early notSource
  · rw [List.mem_singleton, Prod.mk.injEq] at last
    obtain ⟨rfl, rfl⟩ := last
    exact ⟨kind, kindEq, isOwner⟩

/-- The row of an initialize stage has no part in the key. -/
private theorem note_init (describes : Describes attr owners kindOf profile rows)
    (notSource : mode ≠ .readSource) (kindEq : kindOf stage = some .init) :
    Describes attr owners kindOf (profile.note .init mode) (rows ++ [(stage, mode)]) := by
  have grown (wanted : StageId → StageKind → Mode → Prop) :
      Involves kindOf (rows ++ [(stage, mode)]) wanted ↔
        Involves kindOf rows wanted ∨ wanted stage .init mode := by
    simp [involves_concat, notSource, kindEq]
  refine ⟨?_, ?_, ?_, ?_, ?_, ?_, ?_, ?_, ?_, ?_⟩
  · simp [grown, note]
  · simp [grown, note, describes.touchedInUpdate]
  · simp [grown, note, describes.touchedInOutput]
  · simp [grown, note, describes.readInUpdate]
  · simp [grown, note, describes.writtenInUpdate]
  · simp [grown, note, describes.writtenAtInit]
  · intro place
    simp [grown, note, describes.readBy]
  · intro place
    simp [grown, note, describes.writtenBy]
  · exact describes.selfInitialized
  · exact describes.ownersKnown_concat kindEq (by simp)

/-- The row of any other stage sets the bits of its place. -/
private theorem note_mark (describes : Describes attr owners kindOf profile rows)
    (fits : owners.length ≤ OwnerKey.capacity) (notSource : mode ≠ .readSource)
    {kind : StageKind} (notInit : kind ≠ .init) (kindEq : kindOf stage = some kind)
    {place : Nat} (placeEq : owners.idxOf? stage = some place) :
    Describes attr owners kindOf ((profile.note kind mode).mark place kind mode)
      (rows ++ [(stage, mode)]) := by
  obtain ⟨placeLtOwners, placeStage, _⟩ := List.idxOf?_eq_some_iff.mp placeEq
  have placeLt : place < OwnerKey.capacity := Nat.lt_of_lt_of_le placeLtOwners fits
  have isOwner : stage ∈ owners := by
    rw [← placeStage]
    exact List.getElem_mem placeLtOwners
  have keyEq : (profile.note kind mode).key = profile.key := by cases kind <;> rfl
  have grown (wanted : StageId → StageKind → Mode → Prop) :
      Involves kindOf (rows ++ [(stage, mode)]) wanted ↔
        Involves kindOf rows wanted ∨ wanted stage kind mode := by
    simp [involves_concat, notSource, kindEq]
  refine ⟨?_, ?_, ?_, ?_, ?_, ?_, ?_, ?_, ?_, ?_⟩
  · cases kind <;> simp_all [note, mark, describes.touchedAtInit]
  · cases kind <;> simp_all [note, mark, describes.touchedInUpdate]
  · cases kind <;> simp_all [note, mark, describes.touchedInOutput]
  · cases kind <;> simp_all [note, mark, describes.readInUpdate]
  · cases kind <;> simp_all [note, mark, describes.writtenInUpdate]
  · cases kind <;> simp_all [note, mark, describes.writtenAtInit]
  · intro other
    rw [readBy_mark _ placeLt, keyEq, describes.readBy, grown, placeEq]
    simp only [Option.some.injEq, eq_comm (a := place)]
    tauto
  · intro other
    rw [writtenBy_mark _ placeLt, keyEq, describes.writtenBy, grown, placeEq]
    simp only [Option.some.injEq, eq_comm (a := place)]
    tauto
  · cases kind <;> exact describes.selfInitialized
  · exact describes.ownersKnown_concat kindEq fun _ => isOwner

/-- One more row is described as well. -/
theorem add (describes : Describes attr owners kindOf profile rows)
    (fits : owners.length ≤ OwnerKey.capacity)
    (added : AccessProfile.add attr owners kindOf profile (stage, mode) = .ok next) :
    Describes attr owners kindOf next (rows ++ [(stage, mode)]) := by
  rcases cases_of_add_ok added with ⟨rfl, rfl⟩ | ⟨notSource, kindEq, rfl⟩
    | ⟨notSource, kind, place, notInit, kindEq, placeEq, rfl⟩
  · exact describes.add_source
  · exact describes.note_init notSource kindEq
  · exact describes.note_mark fits notSource notInit kindEq placeEq

theorem foldlM (fits : owners.length ≤ OwnerKey.capacity) {later : List (StageId × Mode)}
    (describes : Describes attr owners kindOf profile rows)
    (folded : later.foldlM (AccessProfile.add attr owners kindOf) profile = .ok next) :
    Describes attr owners kindOf next (rows ++ later) := by
  induction later generalizing profile rows with
  | nil =>
      cases folded
      rwa [List.append_nil]
  | cons row later ih =>
      rw [List.foldlM_cons] at folded
      cases added : AccessProfile.add attr owners kindOf profile row with
      | error fault =>
          rw [added] at folded
          cases folded
      | ok middle =>
          rw [added] at folded
          have described := ih (describes.add fits added) folded
          rwa [List.append_assoc, List.singleton_append] at described

end Describes

/-- The profile that is drawn up from some rows describes them. -/
theorem describes_of_ofRows (fits : owners.length ≤ OwnerKey.capacity)
    (drawnUp : ofRows attr owners kindOf rows = .ok profile) :
    Describes attr owners kindOf profile rows :=
  describes_start.foldlM fits drawnUp

end AttributeFlow.AccessProfile
