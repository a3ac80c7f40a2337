import AttributeFlow.Proofs.AccessProfileRows
import AttributeFlow.Proofs.AccessTableMerge

/-!
# The meaning of a placement

A profile distinguishes seven facts, and a key with two bits for every owner.
Together they say something simple: an attribute is shared exactly if some stage
after initialization reads its current value and something produces that value,
be it initialization of its own accord, the write of an initialize stage or the
write of an update stage.
-/

namespace AttributeFlow

theorem Mode.includes_readCurrent (mode : Mode) : mode.includes .readCurrent = mode.reads := by
  obtain ⟨bits⟩ := mode
  revert bits
  decide +kernel

theorem Mode.includes_writeCurrent (mode : Mode) :
    mode.includes .writeCurrent = mode.writes := by
  obtain ⟨bits⟩ := mode
  revert bits
  decide +kernel

theorem Mode.not_reads_readSource : Mode.readSource.reads = false := by
  decide

theorem Mode.not_writes_readSource : Mode.readSource.writes = false := by
  decide

namespace AccessProfile

variable {attr : Attribute} {owners : List StageId} {kindOf : StageId → Option StageKind}
  {profile : AccessProfile} {rows : List (StageId × Mode)}

theorem Involves.mono {wanted weaker : StageId → StageKind → Mode → Prop}
    (involves : Involves kindOf rows wanted)
    (weakens : ∀ stage kind mode, wanted stage kind mode → weaker stage kind mode) :
    Involves kindOf rows weaker := by
  obtain ⟨stage, mode, kind, member, notSource, kindEq, isWanted⟩ := involves
  exact ⟨stage, mode, kind, member, notSource, kindEq, weakens stage kind mode isWanted⟩

namespace Describes

/-- The key has a read bit exactly if a stage after initialization reads. -/
theorem anyReads_iff (describes : Describes attr owners kindOf profile rows) :
    profile.key.anyReads = true ↔
      Involves kindOf rows fun _ kind mode => kind ≠ .init ∧ mode.reads = true := by
  rw [OwnerKey.anyReads_iff]
  constructor
  · rintro ⟨place, readBy⟩
    exact ((describes.readBy place).mp readBy).mono fun _ _ _ wanted => ⟨wanted.1, wanted.2.2⟩
  · rintro ⟨stage, mode, kind, member, notSource, kindEq, notInit, reads⟩
    obtain ⟨knownKind, knownEq, isOwner⟩ := describes.ownersKnown stage mode member notSource
    obtain rfl : kind = knownKind := Option.some.inj (kindEq.symm.trans knownEq)
    have placed : (owners.idxOf? stage).isSome = true := by
      rw [List.isSome_idxOf?]
      exact isOwner notInit
    obtain ⟨place, placeEq⟩ := Option.isSome_iff_exists.mp placed
    exact ⟨place, (describes.readBy place).mpr
      ⟨stage, mode, kind, member, notSource, kindEq, notInit, placeEq, reads⟩⟩

/-- The key has a write bit exactly if an update stage writes. -/
theorem anyWrites_iff (describes : Describes attr owners kindOf profile rows) :
    profile.key.anyWrites = true ↔
      Involves kindOf rows fun _ kind mode => kind = .update ∧ mode.writes = true := by
  rw [OwnerKey.anyWrites_iff]
  constructor
  · rintro ⟨place, writtenBy⟩
    exact ((describes.writtenBy place).mp writtenBy).mono fun _ _ _ wanted =>
      ⟨wanted.1, wanted.2.2⟩
  · rintro ⟨stage, mode, kind, member, notSource, kindEq, isUpdate, writes⟩
    obtain ⟨knownKind, knownEq, isOwner⟩ := describes.ownersKnown stage mode member notSource
    obtain rfl : kind = knownKind := Option.some.inj (kindEq.symm.trans knownEq)
    have placed : (owners.idxOf? stage).isSome = true := by
      rw [List.isSome_idxOf?]
      exact isOwner (by simp [isUpdate])
    obtain ⟨place, placeEq⟩ := Option.isSome_iff_exists.mp placed
    exact ⟨place, (describes.writtenBy place).mpr
      ⟨stage, mode, kind, member, notSource, kindEq, isUpdate, placeEq, writes⟩⟩

theorem isProduced_iff (describes : Describes attr owners kindOf profile rows) :
    profile.isProduced = true ↔
      attr.isSelfInitialized = true ∨ profile.writtenAtInit = true
        ∨ profile.writtenInUpdate = true := by
  rw [isProduced, Bool.or_eq_true, Bool.or_eq_true, describes.selfInitialized,
    describes.anyWrites_iff, describes.writtenInUpdate, or_assoc]

/-- A value that is read after initialization and produced somewhere passes from
one stage to another. -/
theorem isUnshared_eq_false (describes : Describes attr owners kindOf profile rows)
    (read : profile.key.anyReads = true) (produced : profile.isProduced = true) :
    profile.isUnshared = false := by
  have readerTouches : (profile.readInUpdate = true ∧ profile.touchedInUpdate = true)
      ∨ profile.touchedInOutput = true := by
    rw [describes.readInUpdate, describes.touchedInUpdate, describes.touchedInOutput]
    obtain ⟨stage, mode, kind, member, notSource, kindEq, notInit, reads⟩ :=
      describes.anyReads_iff.mp read
    cases kind with
    | init => exact absurd rfl notInit
    | update =>
        exact Or.inl ⟨⟨stage, mode, _, member, notSource, kindEq, rfl, reads⟩,
          ⟨stage, mode, _, member, notSource, kindEq, rfl⟩⟩
    | output => exact Or.inr ⟨stage, mode, _, member, notSource, kindEq, rfl⟩
  have initWriterTouches : profile.writtenAtInit = true → profile.touchedAtInit = true := by
    rw [describes.writtenAtInit, describes.touchedAtInit]
    exact fun involves => involves.mono fun _ _ _ wanted => wanted.1
  have updateWriterTouches : profile.writtenInUpdate = true → profile.touchedInUpdate = true := by
    rw [describes.writtenInUpdate, describes.touchedInUpdate]
    exact fun involves => involves.mono fun _ _ _ wanted => wanted.1
  -- The reader rules out the first two ways to be unshared, the producer the third.
  simp only [isUnshared, onlyInit, onlyUpdate, onlyOutput, describes.selfInitialized]
  rcases describes.isProduced_iff.mp produced with selfInitialized | atInit | inUpdate
  · rcases readerTouches with ⟨readInUpdate, touchedInUpdate⟩ | touchedInOutput
    · simp [selfInitialized, readInUpdate, touchedInUpdate]
    · simp [selfInitialized, touchedInOutput]
  · rcases readerTouches with ⟨readInUpdate, touchedInUpdate⟩ | touchedInOutput
    · simp [initWriterTouches atInit, touchedInUpdate]
    · simp [initWriterTouches atInit, touchedInOutput]
  · rcases readerTouches with ⟨readInUpdate, touchedInUpdate⟩ | touchedInOutput
    · simp [inUpdate, readInUpdate, touchedInUpdate]
    · simp [inUpdate, updateWriterTouches inUpdate, touchedInOutput]

/-- The value must be kept exactly if it is read after initialization and
produced somewhere. -/
theorem isLocal_eq_false_iff (describes : Describes attr owners kindOf profile rows) :
    profile.isLocal = false ↔
      (Involves kindOf rows fun _ kind mode => kind ≠ .init ∧ mode.reads = true)
        ∧ (attr.isSelfInitialized = true
          ∨ (Involves kindOf rows fun _ kind mode => kind = .init ∧ mode.writes = true)
          ∨ Involves kindOf rows fun _ kind mode => kind = .update ∧ mode.writes = true) := by
  rw [← describes.anyReads_iff, ← describes.writtenAtInit, ← describes.writtenInUpdate,
    ← describes.isProduced_iff]
  constructor
  · intro kept
    simp only [isLocal, Bool.or_eq_false_iff, Bool.not_eq_false'] at kept
    exact ⟨kept.1.1, kept.2⟩
  · rintro ⟨read, produced⟩
    simp [isLocal, read, produced, describes.isUnshared_eq_false read produced]

end Describes

end AccessProfile

namespace Classification

variable {owners : List StageId} {kindOf : StageId → Option StageKind}

/-- A verdict that follows from the rows of an attribute. -/
def Settles (owners : List StageId) (kindOf : StageId → Option StageKind)
    (view : Attribute × List (StageId × Mode)) (verdict : Verdict) : Prop :=
  ∃ profile, AccessProfile.ofRows view.1 owners kindOf view.2 = .ok profile
    ∧ verdict = ⟨view.1, profile.key, profile.placement⟩

/-- A run that is not stopped settles every attribute, in order. -/
theorem settles_ofViews {views : List (Attribute × List (StageId × Mode))}
    (finished : (ofViews owners kindOf views).fault? = none) :
    List.Forall₂ (Settles owners kindOf) views (ofViews owners kindOf views).verdicts := by
  induction views with
  | nil => exact List.Forall₂.nil
  | cons view views ih =>
      obtain ⟨attr, rows⟩ := view
      rw [ofViews] at finished ⊢
      cases drawnUp : AccessProfile.ofRows attr owners kindOf rows with
      | error fault =>
          rw [drawnUp] at finished
          cases finished
      | ok profile =>
          rw [drawnUp] at finished
          exact List.Forall₂.cons ⟨profile, drawnUp, rfl⟩ (ih finished)

theorem attrs_of_settles {views : List (Attribute × List (StageId × Mode))}
    {verdicts : List Verdict} (settled : List.Forall₂ (Settles owners kindOf) views verdicts) :
    verdicts.map Verdict.attr = views.map Prod.fst := by
  induction settled with
  | nil => rfl
  | cons settles _ ih =>
      obtain ⟨_, _, rfl⟩ := settles
      rw [List.map_cons, List.map_cons, ih]

/-- What it takes for a table to have a plan. -/
theorem settled_of_plan {table : AccessTable} {plan : PlacementPlan}
    (planned : (ofTable table owners kindOf).plan = .ok plan) :
    owners.length ≤ OwnerKey.capacity ∧ ∃ verdicts,
      List.Forall₂ (Settles owners kindOf) table.byAttribute verdicts
        ∧ plan.entries = verdicts.map fun verdict => (verdict.attr, verdict.placement) := by
  rw [ofTable] at planned
  by_cases tooMany : OwnerKey.capacity < owners.length
  · rw [if_pos tooMany] at planned
    cases planned
  · rw [if_neg tooMany, Classification.plan] at planned
    refine ⟨Nat.le_of_not_lt tooMany, (ofViews owners kindOf table.byAttribute).verdicts, ?_⟩
    cases stopped : (ofViews owners kindOf table.byAttribute).fault? with
    | some fault =>
        rw [stopped] at planned
        cases planned
    | none =>
        rw [stopped] at planned
        cases planned
        exact ⟨settles_ofViews stopped, rfl⟩

/-- A plan has an entry for each attribute of the table, in order. -/
theorem map_fst_entries {table : AccessTable} {plan : PlacementPlan}
    (planned : (ofTable table owners kindOf).plan = .ok plan) :
    plan.entries.map Prod.fst = table.attributes := by
  obtain ⟨_, verdicts, settled, entriesEq⟩ := settled_of_plan planned
  have attrsEq := attrs_of_settles settled
  rw [AccessTable.byAttribute, List.map_map] at attrsEq
  rw [entriesEq, List.map_map, AccessTable.attributes]
  exact attrsEq

theorem nodup_entries {table : AccessTable} {plan : PlacementPlan} (coherent : table.Coherent)
    (planned : (ofTable table owners kindOf).plan = .ok plan) :
    (plan.entries.map Prod.fst).Nodup := by
  rw [map_fst_entries planned]
  exact coherent.nodup_attributes

end Classification

namespace PlacementPlan

theorem placement?_of_mem {plan : PlacementPlan} (distinct : (plan.entries.map Prod.fst).Nodup)
    {attr : Attribute} {placement : Placement} (member : (attr, placement) ∈ plan.entries) :
    plan.placement? attr = some placement := by
  obtain ⟨entries⟩ := plan
  rw [placement?]
  induction entries with
  | nil => simp at member
  | cons entry entries ih =>
      obtain ⟨name, first⟩ := entry
      rw [List.map_cons, List.nodup_cons] at distinct
      rw [List.find?_cons]
      rcases List.mem_cons.mp member with same | later
      · cases same
        simp
      · have other : (name == attr) = false := by
          rw [beq_eq_false_iff_ne]
          rintro rfl
          exact distinct.1 (List.mem_map.mpr ⟨_, later, rfl⟩)
        simp only [other]
        exact ih distinct.2 later

end PlacementPlan

namespace AccessTable

variable {table : AccessTable} {owners : List StageId} {kindOf : StageId → Option StageKind}
  {plan : PlacementPlan}

/-- Each attribute of a coherent table is placed by the profile of its rows. -/
theorem Coherent.placement?_eq (coherent : table.Coherent)
    (planned : (Classification.ofTable table owners kindOf).plan = .ok plan) {attr : Attribute}
    (used : attr ∈ table.attributes) :
    ∃ profile, plan.placement? attr = some profile.placement
      ∧ AccessProfile.Describes attr owners kindOf profile (table.modesOf attr) := by
  obtain ⟨fits, verdicts, settled, entriesEq⟩ := Classification.settled_of_plan planned
  have viewMem : (attr, table.modesOf attr) ∈ table.byAttribute := by
    rw [coherent.byAttribute_eq]
    exact List.mem_map.mpr ⟨attr, used, rfl⟩
  obtain ⟨place, placeLt, viewEq⟩ := List.getElem_of_mem viewMem
  have placeLt' : place < verdicts.length := settled.length_eq ▸ placeLt
  obtain ⟨profile, drawnUp, verdictEq⟩ := List.Forall₂.get settled placeLt placeLt'
  rw [List.get_eq_getElem, viewEq] at drawnUp
  refine ⟨profile, ?_, AccessProfile.describes_of_ofRows fits drawnUp⟩
  apply PlacementPlan.placement?_of_mem (Classification.nodup_entries coherent planned)
  rw [entriesEq]
  refine List.mem_map.mpr ⟨verdicts[place], List.getElem_mem placeLt', ?_⟩
  rw [List.get_eq_getElem, List.get_eq_getElem, viewEq] at verdictEq
  rw [verdictEq]

/-- A row that is wanted is a cell that is wanted, as long as a mere read of the
source value is not. -/
theorem Coherent.involves_iff (coherent : table.Coherent) {attr : Attribute}
    {wanted : StageId → StageKind → Mode → Prop}
    (notSource : ∀ stage kind, ¬ wanted stage kind .readSource)
    (notEmpty : ∀ stage kind, ¬ wanted stage kind ∅) :
    AccessProfile.Involves kindOf (table.modesOf attr) wanted ↔
      ∃ stage kind, kindOf stage = some kind ∧ wanted stage kind (table.modeAt attr stage) := by
  constructor
  · rintro ⟨stage, mode, kind, member, _, kindEq, isWanted⟩
    obtain ⟨rfl, _⟩ := coherent.mem_modesOf_iff.mp member
    exact ⟨stage, kind, kindEq, isWanted⟩
  · rintro ⟨stage, kind, kindEq, isWanted⟩
    refine ⟨stage, table.modeAt attr stage, kind, ?_, ?_, kindEq, isWanted⟩
    · refine coherent.mem_modesOf_iff.mpr ⟨rfl, ?_⟩
      intro modeEmpty
      rw [modeEmpty] at isWanted
      exact notEmpty stage kind isWanted
    · intro isSource
      rw [isSource] at isWanted
      exact notSource stage kind isWanted

theorem Coherent.isRead_iff (coherent : table.Coherent) {attr : Attribute} :
    AccessProfile.Involves kindOf (table.modesOf attr)
        (fun _ kind mode => kind ≠ .init ∧ mode.reads = true) ↔
      ∃ stage, (kindOf stage = some .update ∨ kindOf stage = some .output)
        ∧ (table.modeAt attr stage).includes .readCurrent = true := by
  rw [coherent.involves_iff (by simp [Mode.not_reads_readSource]) (by simp [Mode.reads_iff])]
  simp only [Mode.includes_readCurrent]
  apply exists_congr
  intro stage
  cases kindOf stage with
  | none => simp
  | some kind => cases kind <;> simp

theorem Coherent.isWritten_iff (coherent : table.Coherent) {attr : Attribute}
    {writer : StageKind} :
    AccessProfile.Involves kindOf (table.modesOf attr)
        (fun _ kind mode => kind = writer ∧ mode.writes = true) ↔
      ∃ stage, kindOf stage = some writer
        ∧ (table.modeAt attr stage).includes .writeCurrent = true := by
  rw [coherent.involves_iff (by simp [Mode.not_writes_readSource]) (by simp [Mode.writes_iff])]
  simp only [Mode.includes_writeCurrent]
  constructor
  · intro written
    obtain ⟨stage, kind, kindEq, rfl, writes⟩ := written
    exact ⟨stage, kindEq, writes⟩
  · intro written
    obtain ⟨stage, kindEq, writes⟩ := written
    exact ⟨stage, writer, kindEq, rfl, writes⟩

end AccessTable

/-- An attribute of a table is shared exactly if an update or output stage reads
its current value and the value is produced: by initialization of its own
accord, by an initialize stage or by an update stage.  Otherwise it is local. -/
theorem isShared_iff_read_and_produced {table : AccessTable} (reached : table.Reached)
    {owners : List StageId} {kindOf : StageId → Option StageKind} {plan : PlacementPlan}
    (planned : (Classification.ofTable table owners kindOf).plan = .ok plan) {attr : Attribute}
    (used : attr ∈ table.attributes) :
    (plan.isShared attr = true ↔
      (∃ stage, (kindOf stage = some .update ∨ kindOf stage = some .output)
          ∧ (table.modeAt attr stage).includes .readCurrent = true)
        ∧ (attr ∈ Attribute.selfInitialized
          ∨ (∃ stage, kindOf stage = some .init
            ∧ (table.modeAt attr stage).includes .writeCurrent = true)
          ∨ ∃ stage, kindOf stage = some .update
            ∧ (table.modeAt attr stage).includes .writeCurrent = true))
      ∧ (plan.isShared attr = false → plan.isLocal attr = true) := by
  have coherent := reached.coherent
  obtain ⟨profile, placementEq, describes⟩ := coherent.placement?_eq planned used
  have sharedEq : plan.isShared attr = !profile.isLocal := by
    rw [PlacementPlan.isShared, PlacementPlan.key?, placementEq, AccessProfile.placement]
    cases profile.isLocal <;> rfl
  have localEq : plan.isLocal attr = profile.isLocal := by
    rw [PlacementPlan.isLocal, placementEq, AccessProfile.placement]
    cases profile.isLocal <;> rfl
  constructor
  · rw [sharedEq, Bool.not_eq_true', describes.isLocal_eq_false_iff, coherent.isRead_iff,
      coherent.isWritten_iff, coherent.isWritten_iff, Attribute.isSelfInitialized, List.contains_iff_mem]
  · intro notShared
    rw [localEq]
    rw [sharedEq] at notShared
    simpa using notShared

/-- An update stage that reads both values, and an initialize stage whose write
has an unknown flag beside it, share an attribute; the third stage only reads the
source value and need not be known. -/
theorem isShared_iff_read_and_produced_color :
    let table : AccessTable := .ofRows
      [⟨⟨0⟩, .color, ⟨10⟩⟩, ⟨⟨1⟩, .color, ⟨5⟩⟩, ⟨⟨7⟩, .color, .readSource⟩]
    let kindOf (stage : StageId) : Option StageKind :=
      if stage = ⟨0⟩ then some .init else if stage = ⟨1⟩ then some .update else none
    table.Reached
      ∧ (Classification.ofTable table [⟨1⟩] kindOf).plan = .ok ⟨[(.color, .shared 1)]⟩
      ∧ .color ∈ table.attributes
      ∧ (∃ stage, (kindOf stage = some .update ∨ kindOf stage = some .output)
        ∧ (table.modeAt .color stage).includes .readCurrent = true)
      ∧ (.color ∈ Attribute.selfInitialized
        ∨ (∃ stage, kindOf stage = some .init
          ∧ (table.modeAt .color stage).includes .writeCurrent = true)
        ∨ ∃ stage, kindOf stage = some .update
          ∧ (table.modeAt .color stage).includes .writeCurrent = true) := by
  intro table kindOf
  have firstMerge : AccessTable.merge {} ⟨0⟩ ⟨.color, ⟨10⟩⟩ =
      .ok (.ofRows [⟨⟨0⟩, .color, ⟨10⟩⟩], true) := by
    decide
  have secondMerge : AccessTable.merge (.ofRows [⟨⟨0⟩, .color, ⟨10⟩⟩]) ⟨1⟩ ⟨.color, ⟨5⟩⟩ =
      .ok (.ofRows [⟨⟨0⟩, .color, ⟨10⟩⟩, ⟨⟨1⟩, .color, ⟨5⟩⟩], true) := by
    decide
  have thirdMerge : AccessTable.merge (.ofRows [⟨⟨0⟩, .color, ⟨10⟩⟩, ⟨⟨1⟩, .color, ⟨5⟩⟩]) ⟨7⟩
      (.readSource .color) = .ok (table, true) := by
    decide
  have reached : table.Reached := ((AccessTable.Reached.empty.merge firstMerge).merge
    secondMerge).merge thirdMerge
  have planned :
      (Classification.ofTable table [⟨1⟩] kindOf).plan = .ok ⟨[(.color, .shared 1)]⟩ := by
    decide
  have used : .color ∈ table.attributes := by
    decide
  exact ⟨reached, planned, used,
    (isShared_iff_read_and_produced reached planned used).1.mp (by decide)⟩

end AttributeFlow
