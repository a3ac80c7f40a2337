import AttributeFlow.Attribute

/-!
# Access modes

A mode is a set of flags that says how an attribute is touched.  The current
value is the one a stage sees together with its own earlier writes; the source
value is the one from before the stage began.

A mode is stored in a byte, and a mode read from a file may carry flags beyond
the three known ones.  They are kept: only the empty mode says that nothing is
touched.  The union of modes is associative, commutative and idempotent, so it
does not matter in which order accesses are merged, or how often.
-/

namespace AttributeFlow

/-- A set of access flags. -/
@[ext]
structure Mode where
  bits : BitVec 8
  deriving DecidableEq

namespace Mode

instance : EmptyCollection Mode := ⟨⟨0⟩⟩

instance : Union Mode := ⟨fun first second => ⟨first.bits ||| second.bits⟩⟩

instance : Inter Mode := ⟨fun first second => ⟨first.bits &&& second.bits⟩⟩

def readCurrent : Mode := ⟨1⟩

def writeCurrent : Mode := ⟨2⟩

def readSource : Mode := ⟨4⟩

def readWriteCurrent : Mode := ⟨3⟩

def all : Mode := ⟨7⟩

def known (mode : Mode) : Mode :=
  mode ∩ all

def isEmpty (mode : Mode) : Bool :=
  mode == ∅

/-- Whether every flag of the other mode is set. -/
def includes (mode other : Mode) : Bool :=
  mode ∩ other == other

/-- Whether some flag of the other mode is set. -/
def meets (mode other : Mode) : Bool :=
  !(mode ∩ other).isEmpty

def reads (mode : Mode) : Bool :=
  mode.meets readCurrent

def writes (mode : Mode) : Bool :=
  mode.meets writeCurrent

/-- The known flags with their names, in display order. -/
def flagNames : List (Mode × String) :=
  [(readCurrent, "ReadCurrent"), (writeCurrent, "WriteCurrent"), (readSource, "ReadSource")]

/-- The mode in messages: the names of its known flags, or `None` for no flags
at all. -/
def display (mode : Mode) : String :=
  if mode.isEmpty then "None"
  else String.intercalate "|"
    ((flagNames.filter fun (flag, _) => mode.includes flag).map Prod.snd)

@[simp]
theorem bits_empty : (∅ : Mode).bits = 0 :=
  rfl

@[simp]
theorem bits_union (first second : Mode) :
    (first ∪ second).bits = first.bits ||| second.bits :=
  rfl

@[simp]
theorem bits_inter (first second : Mode) :
    (first ∩ second).bits = first.bits &&& second.bits :=
  rfl

@[simp]
theorem union_self (mode : Mode) : mode ∪ mode = mode :=
  Mode.ext BitVec.or_self

@[simp]
theorem empty_union (mode : Mode) : ∅ ∪ mode = mode :=
  Mode.ext BitVec.zero_or

@[simp]
theorem union_empty (mode : Mode) : mode ∪ ∅ = mode :=
  Mode.ext BitVec.or_zero

/-- A mode that adds no flag is included. -/
theorem union_eq_left_iff {mode other : Mode} :
    mode ∪ other = mode ↔ mode.includes other = true := by
  simp only [includes, beq_iff_eq, Mode.ext_iff, bits_union, bits_inter]
  constructor
  · intro absorbed
    rw [← absorbed]
    ext place placeLt
    simp only [BitVec.getElem_and, BitVec.getElem_or, Bool.and_eq_right_iff_imp,
      Bool.or_eq_true]
    exact Or.inr
  · intro included
    rw [← included]
    ext place placeLt
    simp only [BitVec.getElem_and, BitVec.getElem_or, Bool.or_eq_left_iff_imp,
      Bool.and_eq_true]
    exact And.left

end Mode

/-- One fact of usage: an attribute and the mode it is touched in. -/
structure Access where
  attr : Attribute
  mode : Mode
  deriving DecidableEq

namespace Access

def read (attr : Attribute) : Access := ⟨attr, .readCurrent⟩

def write (attr : Attribute) : Access := ⟨attr, .writeCurrent⟩

def readWrite (attr : Attribute) : Access := ⟨attr, .readWriteCurrent⟩

def readSource (attr : Attribute) : Access := ⟨attr, .readSource⟩

end Access

end AttributeFlow
