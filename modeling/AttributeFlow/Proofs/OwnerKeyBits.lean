import AttributeFlow.Classification
import AttributeFlow.Proofs.ModeFlags
import Mathlib.Data.List.Nodup

/-!
# Bits of an owner key

The two bits of an owner are read off a key by the owner's place.  Marking an
owner below the capacity sets these bits and no others, so a key says of every
place whether a reader or a writer was marked there.
-/

namespace AttributeFlow

namespace OwnerKey

/-- The owner at a place reads. -/
def ReadBy (key : OwnerKey) (place : Nat) : Prop :=
  key.getLsbD (2 * place) = true

/-- The owner at a place writes. -/
def WrittenBy (key : OwnerKey) (place : Nat) : Prop :=
  key.getLsbD (2 * place + 1) = true

@[simp]
theorem not_readBy_zero (place : Nat) : ¬ ReadBy 0#32 place := by
  simp [ReadBy]

@[simp]
theorem not_writtenBy_zero (place : Nat) : ¬ WrittenBy 0#32 place := by
  simp [WrittenBy]

/-- The write mask has the odd bits. -/
theorem getLsbD_writeMask (bit : Nat) :
    writeMask.getLsbD bit = (decide (bit < 32) && decide (bit % 2 = 1)) := by
  by_cases bitLt : bit < 32
  · have table : ∀ bit < 32, writeMask.getLsbD bit = decide (bit % 2 = 1) := by
      decide
    rw [table bit bitLt]
    simp [bitLt]
  · simp [BitVec.getLsbD_of_ge _ _ (Nat.le_of_not_lt bitLt), bitLt]

private theorem ne_zero_iff {word : BitVec 32} :
    (word != 0) = true ↔ ∃ bit, word.getLsbD bit = true := by
  rw [bne_iff_ne]
  constructor
  · intro nonzero
    by_contra none
    push Not at none
    apply nonzero
    apply BitVec.eq_of_getLsbD_eq
    intro bit _
    simpa using none bit
  · rintro ⟨bit, bitSet⟩ rfl
    simp at bitSet

theorem anyReads_iff {key : OwnerKey} : key.anyReads = true ↔ ∃ place, key.ReadBy place := by
  rw [anyReads, ne_zero_iff]
  simp only [BitVec.getLsbD_and, BitVec.getLsbD_not, getLsbD_writeMask, Bool.and_eq_true]
  constructor
  · rintro ⟨bit, bitSet, allowed⟩
    have even : 2 * (bit / 2) = bit := by
      have bitLt := BitVec.lt_of_getLsbD bitSet
      simp only [bitLt, decide_true, Bool.true_and, Bool.not_eq_true', decide_eq_false_iff_not]
        at allowed
      omega
    exact ⟨bit / 2, by rwa [ReadBy, even]⟩
  · rintro ⟨place, readBy⟩
    have bitLt := BitVec.lt_of_getLsbD readBy
    exact ⟨2 * place, readBy, by simp [bitLt]⟩

theorem anyWrites_iff {key : OwnerKey} :
    key.anyWrites = true ↔ ∃ place, key.WrittenBy place := by
  rw [anyWrites, ne_zero_iff]
  simp only [BitVec.getLsbD_and, getLsbD_writeMask, Bool.and_eq_true, decide_eq_true_eq]
  constructor
  · rintro ⟨bit, bitSet, _, odd⟩
    have halved : 2 * (bit / 2) + 1 = bit := by omega
    exact ⟨bit / 2, by rwa [WrittenBy, halved]⟩
  · rintro ⟨place, writtenBy⟩
    exact ⟨2 * place + 1, writtenBy, BitVec.lt_of_getLsbD writtenBy, by omega⟩

/-- A key is determined by the readers and writers of all places. -/
theorem eq_iff_places {key other : OwnerKey} :
    key = other ↔ ∀ place, (key.ReadBy place ↔ other.ReadBy place)
      ∧ (key.WrittenBy place ↔ other.WrittenBy place) := by
  constructor
  · rintro rfl place
    exact ⟨Iff.rfl, Iff.rfl⟩
  · intro samePlaces
    apply BitVec.eq_of_getLsbD_eq
    intro bit _
    obtain ⟨sameReads, sameWrites⟩ := samePlaces (bit / 2)
    rcases Nat.mod_two_eq_zero_or_one bit with even | odd
    · have bitEq : 2 * (bit / 2) = bit := by omega
      rw [ReadBy, ReadBy, bitEq] at sameReads
      exact Bool.eq_iff_iff.mpr sameReads
    · have bitEq : 2 * (bit / 2) + 1 = bit := by omega
      rw [WrittenBy, WrittenBy, bitEq] at sameWrites
      exact Bool.eq_iff_iff.mpr sameWrites

end OwnerKey

namespace AccessProfile

theorem getLsbD_ownerBits (kind : StageKind) (mode : Mode) (bit : Nat) :
    (ownerBits kind mode).getLsbD bit =
      ((decide (bit = 0) && mode.reads)
        || (decide (bit = 1) && (mode.writes && kind == .update))) := by
  have one : (1 : OwnerKey).getLsbD bit = decide (bit = 0) := by
    simp [BitVec.getLsbD_one]
  have two : (2 : OwnerKey).getLsbD bit = decide (bit = 1) := by
    have twoEq : (2 : OwnerKey) = BitVec.twoPow 32 1 := by decide
    rw [twoEq, BitVec.getLsbD_twoPow]
    by_cases isOne : bit = 1 <;> simp [isOne, eq_comm]
  have onlyIf (condition : Bool) (word : OwnerKey) :
      (if condition then word else 0).getLsbD bit = (word.getLsbD bit && condition) := by
    cases condition <;> simp
  rw [ownerBits, BitVec.getLsbD_or, onlyIf, onlyIf, one, two]

/-- The bits of an owner, moved to its place, lie in this place. -/
theorem place_of_getLsbD_shifted {kind : StageKind} {mode : Mode} {place bit : Nat}
    (bitSet : (ownerBits kind mode <<< (2 * place)).getLsbD bit = true) : bit / 2 = place := by
  simp only [BitVec.getLsbD_shiftLeft, getLsbD_ownerBits, Bool.or_eq_true, Bool.and_eq_true,
    decide_eq_true_eq, Bool.not_eq_true', decide_eq_false_iff_not] at bitSet
  omega

theorem shifted_and_shifted {place other : Nat} (different : place ≠ other)
    (kind otherKind : StageKind) (mode otherMode : Mode) :
    (ownerBits kind mode <<< (2 * place)) &&& (ownerBits otherKind otherMode <<< (2 * other)) =
      0#32 := by
  apply BitVec.eq_of_getLsbD_eq
  intro bit _
  rw [BitVec.getLsbD_and, BitVec.getLsbD_zero, Bool.eq_false_iff, ne_eq, Bool.and_eq_true]
  rintro ⟨here, there⟩
  exact different ((place_of_getLsbD_shifted here).symm.trans (place_of_getLsbD_shifted there))

/-- Below the capacity no bit of an owner is moved out of the word. -/
theorem shifted_back {place : Nat} (placeLt : place < OwnerKey.capacity) (kind : StageKind)
    (mode : Mode) :
    (ownerBits kind mode <<< (2 * place)) >>> (2 * place) = ownerBits kind mode := by
  rw [OwnerKey.capacity] at placeLt
  apply BitVec.eq_of_getLsbD_eq
  intro bit bitLt
  rw [BitVec.getLsbD_ushiftRight, BitVec.getLsbD_shiftLeft, getLsbD_ownerBits, getLsbD_ownerBits,
    Nat.add_sub_cancel_left]
  by_cases low : bit < 2
  · have inside : 2 * place + bit < 32 := by omega
    simp [inside]
  · have notZero : bit ≠ 0 := by omega
    have notOne : bit ≠ 1 := by omega
    simp [notZero, notOne]

/-- Marking an owner sets the read bit of its place, if it reads. -/
theorem readBy_mark (profile : AccessProfile) {place : Nat} (placeLt : place < OwnerKey.capacity)
    (kind : StageKind) (mode : Mode) (other : Nat) :
    (profile.mark place kind mode).key.ReadBy other ↔
      profile.key.ReadBy other ∨ (other = place ∧ mode.reads = true) := by
  rw [OwnerKey.capacity] at placeLt
  simp only [OwnerKey.ReadBy, mark, BitVec.getLsbD_or, BitVec.getLsbD_shiftLeft,
    getLsbD_ownerBits, Bool.or_eq_true, Bool.and_eq_true, decide_eq_true_eq,
    Bool.not_eq_true', decide_eq_false_iff_not]
  constructor
  · rintro (old | ⟨⟨_, reached⟩, ⟨atZero, reads⟩ | ⟨atOne, _⟩⟩)
    · exact Or.inl old
    · exact Or.inr ⟨by omega, reads⟩
    · omega
  · rintro (old | ⟨rfl, reads⟩)
    · exact Or.inl old
    · exact Or.inr ⟨⟨by omega, by omega⟩, Or.inl ⟨by omega, reads⟩⟩

/-- Marking an owner sets the write bit of its place, if it is an update stage
that writes. -/
theorem writtenBy_mark (profile : AccessProfile) {place : Nat}
    (placeLt : place < OwnerKey.capacity) (kind : StageKind) (mode : Mode) (other : Nat) :
    (profile.mark place kind mode).key.WrittenBy other ↔
      profile.key.WrittenBy other
        ∨ (other = place ∧ mode.writes = true ∧ kind = .update) := by
  rw [OwnerKey.capacity] at placeLt
  simp only [OwnerKey.WrittenBy, mark, BitVec.getLsbD_or, BitVec.getLsbD_shiftLeft,
    getLsbD_ownerBits, Bool.or_eq_true, Bool.and_eq_true, decide_eq_true_eq, beq_iff_eq,
    Bool.not_eq_true', decide_eq_false_iff_not]
  constructor
  · rintro (old | ⟨⟨_, reached⟩, ⟨atZero, _⟩ | ⟨atOne, writes⟩⟩)
    · exact Or.inl old
    · omega
    · exact Or.inr ⟨by omega, writes⟩
  · rintro (old | ⟨rfl, writes⟩)
    · exact Or.inl old
    · exact Or.inr ⟨⟨by omega, by omega⟩, Or.inr ⟨by omega, writes⟩⟩

end AccessProfile

end AttributeFlow
