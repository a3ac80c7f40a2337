import AttributeFlow.Proofs.PlacementMeaning

/-!
# What a shared key tells

The place of an owner in a key has one bit for reading and one for writing.  In
the key of a shared attribute the first is set exactly if the owner comes after
initialization and reads the current value, and the second exactly if the owner
is an update stage and writes it.  Owners do not share bits, so keys are equal
exactly if they tell the same of every owner.
-/

namespace AttributeFlow

namespace AccessTable

/-- The stage comes after initialization and reads the current value. -/
def ReadIn (table : AccessTable) (kindOf : StageId → Option StageKind) (attr : Attribute)
    (stage : StageId) : Prop :=
  kindOf stage ≠ some .init ∧ (table.modeAt attr stage).includes .readCurrent = true

/-- The stage is an update stage and writes the current value. -/
def WrittenIn (table : AccessTable) (kindOf : StageId → Option StageKind) (attr : Attribute)
    (stage : StageId) : Prop :=
  kindOf stage = some .update ∧ (table.modeAt attr stage).includes .writeCurrent = true

end AccessTable

namespace AccessTable.Coherent

variable {table : AccessTable} {owners : List StageId} {kindOf : StageId → Option StageKind}
  {plan : PlacementPlan} {attr : Attribute} {profile : AccessProfile} {key : OwnerKey}

/-- A stage that reads has a kind, because the row that says so has been noted. -/
theorem exists_kind_of_reads (coherent : table.Coherent)
    (describes : AccessProfile.Describes attr owners kindOf profile (table.modesOf attr))
    {stage : StageId} (reads : (table.modeAt attr stage).reads = true) :
    ∃ kind, kindOf stage = some kind := by
  have listed : (stage, table.modeAt attr stage) ∈ table.modesOf attr :=
    coherent.mem_modesOf_iff.mpr ⟨rfl, Mode.ne_empty_of_has (Mode.reads_iff.mp reads)⟩
  have notSource : table.modeAt attr stage ≠ .readSource := by
    intro isSource
    rw [isSource, Mode.not_reads_readSource] at reads
    cases reads
  obtain ⟨kind, kindEq, _⟩ := describes.ownersKnown stage _ listed notSource
  exact ⟨kind, kindEq⟩

theorem readBy_iff (coherent : table.Coherent) (distinct : owners.Nodup)
    (describes : AccessProfile.Describes attr owners kindOf profile (table.modesOf attr))
    (place : Nat) :
    profile.key.ReadBy place ↔
      ∃ owner, owners[place]? = some owner ∧ table.ReadIn kindOf attr owner := by
  rw [describes.readBy, coherent.involves_iff (by simp [Mode.not_reads_readSource])
    (by simp [Mode.reads_iff])]
  simp only [idxOf?_eq_some_iff_getElem? distinct, ReadIn, Mode.includes_readCurrent]
  constructor
  · rintro ⟨owner, kind, kindEq, notInit, atPlace, reads⟩
    exact ⟨owner, atPlace, by simpa [kindEq] using notInit, reads⟩
  · rintro ⟨owner, atPlace, notInit, reads⟩
    obtain ⟨kind, kindEq⟩ := coherent.exists_kind_of_reads describes reads
    exact ⟨owner, kind, kindEq, by simpa [kindEq] using notInit, atPlace, reads⟩

theorem writtenBy_iff (coherent : table.Coherent) (distinct : owners.Nodup)
    (describes : AccessProfile.Describes attr owners kindOf profile (table.modesOf attr))
    (place : Nat) :
    profile.key.WrittenBy place ↔
      ∃ owner, owners[place]? = some owner ∧ table.WrittenIn kindOf attr owner := by
  rw [describes.writtenBy, coherent.involves_iff (by simp [Mode.not_writes_readSource])
    (by simp [Mode.writes_iff])]
  simp only [idxOf?_eq_some_iff_getElem? distinct, WrittenIn, Mode.includes_writeCurrent]
  constructor
  · rintro ⟨owner, kind, kindEq, rfl, atPlace, writes⟩
    exact ⟨owner, atPlace, kindEq, writes⟩
  · rintro ⟨owner, atPlace, kindEq, writes⟩
    exact ⟨owner, .update, kindEq, rfl, atPlace, writes⟩

/-- The key of a shared attribute is that of a profile that describes its rows. -/
theorem exists_profile_of_key? (coherent : table.Coherent)
    (planned : (Classification.ofTable table owners kindOf).plan = .ok plan)
    (shared : plan.key? attr = some key) :
    ∃ profile : AccessProfile, profile.key = key ∧ profile.isLocal = false
      ∧ AccessProfile.Describes attr owners kindOf profile (table.modesOf attr) := by
  obtain ⟨placement, placementEq, keyEq⟩ := Option.bind_eq_some_iff.mp shared
  have used : attr ∈ table.attributes := by
    obtain ⟨⟨name, _⟩, found, _⟩ := Option.map_eq_some_iff.mp placementEq
    have nameEq : name = attr := by simpa using List.find?_some found
    rw [← Classification.map_fst_entries planned, ← nameEq]
    exact List.mem_map_of_mem (f := Prod.fst) (List.mem_of_find?_eq_some found)
  obtain ⟨profile, profilePlacement, describes⟩ := coherent.placement?_eq planned used
  rw [placementEq, Option.some.injEq] at profilePlacement
  rw [profilePlacement, AccessProfile.placement] at keyEq
  cases isLocal : profile.isLocal with
  | true =>
      rw [isLocal] at keyEq
      cases keyEq
  | false =>
      rw [isLocal] at keyEq
      exact ⟨profile, Option.some.inj keyEq, isLocal, describes⟩

/-- Both bits of every place of a shared key, and a reader that it is shared for. -/
theorem places_of_key? (coherent : table.Coherent) (distinct : owners.Nodup)
    (planned : (Classification.ofTable table owners kindOf).plan = .ok plan)
    (shared : plan.key? attr = some key) :
    (∀ place, key.ReadBy place ↔
        ∃ owner, owners[place]? = some owner ∧ table.ReadIn kindOf attr owner)
      ∧ (∀ place, key.WrittenBy place ↔
        ∃ owner, owners[place]? = some owner ∧ table.WrittenIn kindOf attr owner)
      ∧ ∃ place, key.ReadBy place := by
  obtain ⟨profile, rfl, kept, describes⟩ := coherent.exists_profile_of_key? planned shared
  have read := (describes.isLocal_eq_false_iff.mp kept).1
  exact ⟨coherent.readBy_iff distinct describes, coherent.writtenBy_iff distinct describes,
    OwnerKey.anyReads_iff.mp (describes.anyReads_iff.mpr read)⟩

end AccessTable.Coherent

/-- Two facts agree at every place exactly if they agree about every owner. -/
theorem forall_places_iff_forall_owners {owners : List StageId} {first second : StageId → Prop} :
    (∀ place : Nat, (∃ owner, owners[place]? = some owner ∧ first owner) ↔
        ∃ owner, owners[place]? = some owner ∧ second owner) ↔
      ∀ owner ∈ owners, first owner ↔ second owner := by
  constructor
  · intro samePlaces owner member
    obtain ⟨place, atPlace⟩ := List.mem_iff_getElem?.mp member
    simpa [atPlace] using samePlaces place
  · intro sameOwners place
    cases atPlace : owners[place]? with
    | none => simp
    | some owner => simpa using sameOwners owner (List.mem_of_getElem? atPlace)

/-- The bits of a shared key say of every owner whether it reads after
initialization, and whether it writes as an update stage.  The bits of an owner
stay within the word and apart from those of the others, so the key determines
these facts about the owners and is determined by them, and some owner reads. -/
theorem key?_tells_readers_and_writers {table : AccessTable} (reached : table.Reached)
    {owners : List StageId} (distinct : owners.Nodup) {kindOf : StageId → Option StageKind}
    {plan : PlacementPlan} (planned : (Classification.ofTable table owners kindOf).plan = .ok plan)
    {attr : Attribute} {key : OwnerKey} (shared : plan.key? attr = some key) :
    (∀ place,
        (key.getLsbD (2 * place) = true ↔
          ∃ owner, owners[place]? = some owner ∧ table.ReadIn kindOf attr owner)
        ∧ (key.getLsbD (2 * place + 1) = true ↔
          ∃ owner, owners[place]? = some owner ∧ table.WrittenIn kindOf attr owner))
      ∧ (∀ place < owners.length, 2 * place + 1 < 32 ∧ ∀ kind mode,
        (AccessProfile.ownerBits kind mode <<< (2 * place)) >>> (2 * place) =
          AccessProfile.ownerBits kind mode)
      ∧ (∀ place other, place ≠ other → ∀ kind mode otherKind otherMode,
        (AccessProfile.ownerBits kind mode <<< (2 * place))
          &&& (AccessProfile.ownerBits otherKind otherMode <<< (2 * other)) = 0#32)
      ∧ (∀ (otherTable : AccessTable) (otherKindOf : StageId → Option StageKind)
          (otherPlan : PlacementPlan) (otherAttr : Attribute) (otherKey : OwnerKey),
        otherTable.Reached →
        (Classification.ofTable otherTable owners otherKindOf).plan = .ok otherPlan →
        otherPlan.key? otherAttr = some otherKey →
          (key = otherKey ↔ ∀ owner ∈ owners,
            (table.ReadIn kindOf attr owner ↔ otherTable.ReadIn otherKindOf otherAttr owner)
            ∧ (table.WrittenIn kindOf attr owner ↔
              otherTable.WrittenIn otherKindOf otherAttr owner)))
      ∧ ∃ place < owners.length, key.getLsbD (2 * place) = true := by
  obtain ⟨readers, writers, someReader⟩ := reached.coherent.places_of_key? distinct planned shared
  have fits : owners.length ≤ 16 := (Classification.settled_of_plan planned).1
  refine ⟨fun place => ⟨readers place, writers place⟩, ?_, ?_, ?_, ?_⟩
  · intro place placeLt
    exact ⟨by omega, AccessProfile.shifted_back (Nat.lt_of_lt_of_le placeLt fits)⟩
  · intro place other different kind mode otherKind otherMode
    exact AccessProfile.shifted_and_shifted different kind otherKind mode otherMode
  · intro otherTable otherKindOf otherPlan otherAttr otherKey otherReached otherPlanned otherShared
    obtain ⟨otherReaders, otherWriters, _⟩ :=
      otherReached.coherent.places_of_key? distinct otherPlanned otherShared
    simp only [OwnerKey.eq_iff_places, readers, writers, otherReaders, otherWriters, forall_and]
    rw [forall_places_iff_forall_owners, forall_places_iff_forall_owners]
  · obtain ⟨place, readBy⟩ := someReader
    obtain ⟨owner, atPlace, _⟩ := (readers place).mp readBy
    exact ⟨place, (List.getElem?_eq_some_iff.mp atPlace).1, readBy⟩

/-- The output stage at the first place reads and writes, and only its read is told;
the initialize stage at the second place has no bits; the update stage at the last
place has both. -/
theorem key?_tells_readers_and_writers_color :
    let table : AccessTable := .ofRows
      [⟨⟨3⟩, .color, ⟨3⟩⟩, ⟨⟨1⟩, .color, ⟨135⟩⟩, ⟨⟨2⟩, .color, ⟨3⟩⟩]
    let kindOf (stage : StageId) : Option StageKind :=
      if stage = ⟨3⟩ then some .init else if stage = ⟨1⟩ then some .update else some .output
    table.Reached
      ∧ [(⟨2⟩ : StageId), ⟨3⟩, ⟨1⟩].Nodup
      ∧ (Classification.ofTable table [⟨2⟩, ⟨3⟩, ⟨1⟩] kindOf).plan = .ok ⟨[(.color, .shared 49)]⟩
      ∧ PlacementPlan.key? ⟨[(.color, .shared 49)]⟩ .color = some 49
      ∧ (∀ place, (49 : OwnerKey).getLsbD (2 * place + 1) = true ↔
        ∃ owner, [(⟨2⟩ : StageId), ⟨3⟩, ⟨1⟩][place]? = some owner
          ∧ table.WrittenIn kindOf .color owner)
      ∧ ∃ place < 3, (49 : OwnerKey).getLsbD (2 * place) = true := by
  intro table kindOf
  have firstMerge : AccessTable.merge {} ⟨3⟩ ⟨.color, ⟨3⟩⟩ =
      .ok (.ofRows [⟨⟨3⟩, .color, ⟨3⟩⟩], true) := by
    decide
  have secondMerge : AccessTable.merge (.ofRows [⟨⟨3⟩, .color, ⟨3⟩⟩]) ⟨1⟩ ⟨.color, ⟨135⟩⟩ =
      .ok (.ofRows [⟨⟨3⟩, .color, ⟨3⟩⟩, ⟨⟨1⟩, .color, ⟨135⟩⟩], true) := by
    decide
  have thirdMerge : AccessTable.merge (.ofRows [⟨⟨3⟩, .color, ⟨3⟩⟩, ⟨⟨1⟩, .color, ⟨135⟩⟩]) ⟨2⟩
      (.readWrite .color) = .ok (table, true) := by
    decide
  have reached : table.Reached := ((AccessTable.Reached.empty.merge firstMerge).merge
    secondMerge).merge thirdMerge
  have distinct : [(⟨2⟩ : StageId), ⟨3⟩, ⟨1⟩].Nodup := by
    decide
  have planned : (Classification.ofTable table [⟨2⟩, ⟨3⟩, ⟨1⟩] kindOf).plan =
      .ok ⟨[(.color, .shared 49)]⟩ := by
    decide
  have shared : PlacementPlan.key? ⟨[(.color, .shared 49)]⟩ .color = some 49 := by
    decide
  have told := key?_tells_readers_and_writers reached distinct planned shared
  exact ⟨reached, distinct, planned, shared, fun place => (told.1 place).2, told.2.2.2.2⟩

end AttributeFlow
