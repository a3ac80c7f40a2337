import AttributeFlow.Dataset

/-!
# Backends

The analysis decides which attributes are shared; a backend decides how storage
is declared, loaded and written on its target.  Every ability of a backend has a
default, so that a backend states only those it has.  A dataset asks a backend
only for what datasets of its kind allow: a layout of an analysis that still
stands, and code for attributes that it uses.
-/

namespace AttributeFlow

/-- A target for which code is generated.  Laying out attributes may change the
state of the backend. -/
structure Backend (State : Type) where
  layout : DatasetKind → PlacementPlan → State → Except Fault State :=
    fun _ _ state => .ok state
  /-- The declaration of the buffers that are accessed in a mode. -/
  declaration : Mode → Except Fault String := fun mode => .error (.noDeclaration mode)
  load : Attribute → Except Fault String := fun attr => .error (.noLoad attr)
  store : Attribute → String → Except Fault String := fun attr _ => .error (.noStore attr)

namespace Dataset

variable {State : Type}

def layOut (dataset : Dataset) (backend : Backend State) (state : State) :
    Except Fault State :=
  if !dataset.kind.capabilities.layout then .error (.noLayout dataset.kind)
  else if !dataset.analyzed then .error (.notAnalyzed dataset.id)
  else backend.layout dataset.kind dataset.plan state

/-- Refuse code for an attribute that the dataset does not use, or whose dataset
allows none. -/
def permitCode (dataset : Dataset) (attr : Attribute) : Except Fault Unit :=
  if !dataset.kind.capabilities.loadStore then .error (.noLoadStore dataset.kind)
  else if !dataset.table.contains attr then .error (.unusedAttribute attr dataset.id)
  else .ok ()

def loadCode (dataset : Dataset) (backend : Backend State) (attr : Attribute) :
    Except Fault String := do
  dataset.permitCode attr
  backend.load attr

def storeCode (dataset : Dataset) (backend : Backend State) (attr : Attribute)
    (value : String) : Except Fault String := do
  dataset.permitCode attr
  backend.store attr value

end Dataset

end AttributeFlow
