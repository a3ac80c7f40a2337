import AttributeFlow.Mode

/-!
# Flags of a mode

A mode is determined by its flags, of which it may have eight.  Unions,
inclusion and emptiness are read off flag by flag, and so are the two questions
that placement depends on: flag 0 is a read of the current value, and flag 1 is
a write of it.
-/

namespace AttributeFlow.Mode

/-- The flag at a place is set. -/
def Has (mode : Mode) (flag : Nat) : Prop :=
  mode.bits.getLsbD flag = true

/-- The mode has exactly the flags that occur in some mode of a collection. -/
def IsUnionOf (mode : Mode) (members : Mode → Prop) : Prop :=
  ∀ flag, mode.Has flag ↔ ∃ member, members member ∧ member.Has flag

@[simp]
theorem not_has_empty (flag : Nat) : ¬ Has ∅ flag := by
  simp [Has]

@[simp]
theorem has_union (first second : Mode) (flag : Nat) :
    (first ∪ second).Has flag ↔ first.Has flag ∨ second.Has flag := by
  simp [Has]

/-- A union of some modes, added to one to begin with, has the flags of all of them. -/
theorem has_foldl_union_iff {modes : List Mode} {start : Mode} {flag : Nat} :
    (modes.foldl (· ∪ ·) start).Has flag ↔ start.Has flag ∨ ∃ mode ∈ modes, mode.Has flag := by
  induction modes generalizing start with
  | nil => simp
  | cons mode modes ih =>
      rw [List.foldl_cons, ih, has_union]
      simp only [List.mem_cons, exists_eq_or_imp, or_assoc]

theorem ext_has {first second : Mode}
    (sameFlags : ∀ flag, first.Has flag ↔ second.Has flag) : first = second := by
  apply Mode.ext
  apply BitVec.eq_of_getLsbD_eq
  intro flag _
  exact Bool.eq_iff_iff.mpr (sameFlags flag)

theorem eq_empty_iff {mode : Mode} : mode = ∅ ↔ ∀ flag, ¬ mode.Has flag := by
  constructor
  · rintro rfl
    exact not_has_empty
  · intro none
    exact ext_has fun flag => by simp [none flag]

theorem ne_empty_iff {mode : Mode} : mode ≠ ∅ ↔ ∃ flag, mode.Has flag := by
  simp [eq_empty_iff]

/-- A mode includes another if it has all its flags. -/
theorem includes_iff {mode other : Mode} :
    mode.includes other = true ↔ ∀ flag, other.Has flag → mode.Has flag := by
  rw [← union_eq_left_iff]
  constructor
  · intro absorbed flag present
    rw [← absorbed]
    exact (has_union mode other flag).mpr (Or.inr present)
  · intro flags
    exact ext_has fun flag => by simpa using flags flag

theorem ne_empty_of_has {mode : Mode} {flag : Nat} (present : mode.Has flag) : mode ≠ ∅ :=
  ne_empty_iff.mpr ⟨flag, present⟩

theorem reads_iff {mode : Mode} : mode.reads = true ↔ mode.Has 0 := by
  obtain ⟨bits⟩ := mode
  revert bits
  unfold Has
  decide +kernel

theorem writes_iff {mode : Mode} : mode.writes = true ↔ mode.Has 1 := by
  obtain ⟨bits⟩ := mode
  revert bits
  unfold Has
  decide +kernel

end AttributeFlow.Mode
