import AttributeFlow.Dataset.Analysis

/-!
# Effects

An effect holds stages, datasets and expressions that belong together.  A stage
is assigned to at most one dataset, and the dataset lists it among its owners.
Every edit that can change what the owners of a dataset use makes the last
analysis of the dataset stale, and an analysis is carried out only where the
last one no longer stands.  The one edit that does not is to add a stage under
the name of another one, which takes as many stages as there are names.

Edits check their arguments before they change anything, with two exceptions:
appending an operation makes the stage's dataset stale even if the operation is
refused, and an analysis that fails leaves its dataset stale.
-/

namespace AttributeFlow

structure StageEntry where
  id : StageId
  stage : Stage
  dataset? : Option DatasetId := none
  deriving DecidableEq

/-- Stages, datasets and expressions that belong together. -/
structure Effect where
  /-- The stages that exist, in the order they were added. -/
  entries : List StageEntry := []
  datasets : List Dataset := []
  arena : ExpressionArena := {}
  options : AnalysisOptions := {}
  /-- The name of the next stage that is added. -/
  nextStage : UInt32 := 0
  deriving DecidableEq

namespace Effect

def empty (options : AnalysisOptions) : Effect :=
  { options }

def entry? (effect : Effect) (id : StageId) : Option StageEntry :=
  effect.entries.find? fun entry => entry.id == id

def stage? (effect : Effect) (id : StageId) : Option Stage :=
  (effect.entry? id).map StageEntry.stage

def datasetOf? (effect : Effect) (id : StageId) : Option DatasetId :=
  (effect.entry? id).bind StageEntry.dataset?

def dataset? (effect : Effect) (id : DatasetId) : Option Dataset :=
  effect.datasets[id.index.toNat]?

/-- The dataset of a name, which must exist. -/
def dataset (effect : Effect) (id : DatasetId) : Except Fault Dataset :=
  match effect.dataset? id with
  | some dataset => .ok dataset
  | none => .error (.unknownDataset id)

def setDataset (effect : Effect) (id : DatasetId) (dataset : Dataset) : Effect :=
  { effect with datasets := effect.datasets.set id.index.toNat dataset }

def modifyDataset (effect : Effect) (id : DatasetId) (change : Dataset → Dataset) :
    Effect :=
  { effect with datasets := effect.datasets.modify id.index.toNat change }

def modifyEntry (effect : Effect) (id : StageId) (change : StageEntry → StageEntry) :
    Effect :=
  { effect with
    entries := effect.entries.map fun entry => if entry.id = id then change entry else entry }

def createDataset (effect : Effect) (feed : Feed) : Except Fault (Effect × DatasetId) := do
  let id : DatasetId := ⟨UInt32.ofNat effect.datasets.length⟩
  let dataset ← Dataset.create id feed
  return ({ effect with datasets := effect.datasets ++ [dataset] }, id)

/-- The entries with a stage under a name.  A stage that has the name already is
replaced, and what is assigned under the name stays assigned. -/
def entriesWith (effect : Effect) (id : StageId) (stage : Stage) : List StageEntry :=
  match effect.entry? id with
  | some _ => (effect.modifyEntry id fun entry => { entry with stage }).entries
  | none => effect.entries ++ [{ id, stage }]

/-- Add a stage under the next name.  The counter starts again at the end of the names, and
may then give a name that is still in use. -/
def insertStage (effect : Effect) (stage : Stage) : Effect × StageId :=
  let id : StageId := ⟨effect.nextStage⟩
  ({ effect with
      entries := effect.entriesWith id stage
      nextStage := effect.nextStage + 1 }, id)

def withdraw (effect : Effect) (id : StageId) : Effect :=
  match effect.datasetOf? id with
  | none => effect
  | some old =>
      (effect.modifyDataset old fun dataset => (dataset.dropOwner id).state).modifyEntry id
        fun entry => { entry with dataset? := none }

def enroll (effect : Effect) (id : StageId) (new : DatasetId) : Reply Effect Unit :=
  match effect.dataset? new with
  | none => { state := effect, answer := () }
  | some dataset =>
      let enrolled := dataset.addOwner id
      { state := (effect.setDataset new enrolled.state).modifyEntry id
          fun entry => { entry with dataset? := some new }
        events := enrolled.events
        answer := () }

def eraseStage (effect : Effect) (id : StageId) : Effect × Option Stage :=
  let withdrawn := effect.withdraw id
  ({ withdrawn with entries := withdrawn.entries.filter fun entry => entry.id != id },
    effect.stage? id)

/-- Assign a stage to a dataset, or to none.  The stage leaves its old dataset
first, so a stage that is assigned again becomes the last owner. -/
def assign (effect : Effect) (id : StageId) (new? : Option DatasetId) :
    Reply Effect (Except Fault Unit) :=
  match effect.entry? id, new? with
  | none, _ => { state := effect, answer := .error (.unknownStage id) }
  | some _, none => { state := effect.withdraw id, answer := .ok () }
  | some _, some new =>
      match effect.dataset new with
      | .error fault => { state := effect, answer := .error fault }
      | .ok _ => ((effect.withdraw id).enroll id new).mapAnswer .ok

/-- Change a stage.  Its dataset becomes stale. -/
def modifyStage {Answer : Type} (effect : Effect) (id : StageId)
    (edit : Stage → Stage × Answer) : Except Fault (Effect × Answer) :=
  match effect.entry? id with
  | none => .error (.unknownStage id)
  | some entry =>
      let (stage, answer) := edit entry.stage
      let edited := effect.modifyEntry id fun entry => { entry with stage }
      match entry.dataset? with
      | none => .ok (edited, answer)
      | some dataset => .ok (edited.modifyDataset dataset Dataset.markStale, answer)

/-- Append an operation to a stage.  The dataset of the stage becomes stale even if
the operation does not fit. -/
def appendOperation (effect : Effect) (id : StageId) (operation : Operation) :
    Reply Effect (Except Fault Unit) :=
  let edit (stage : Stage) : Stage × Except Fault Unit :=
    match stage.append operation with
    | .ok longer => (longer, .ok ())
    | .error fault => (stage, .error fault)
  match effect.modifyStage id edit with
  | .error fault => { state := effect, answer := .error fault }
  | .ok (edited, answer) => { state := edited, answer }

def changeSpace (effect : Effect) (id : StageId) (space : Space) : Except Fault Effect := do
  let (edited, ()) ← effect.modifyStage id fun stage => ({ stage with space }, ())
  return edited

/-- Change the expressions.  Any dataset may depend on them, so all of them become
stale, whatever the change does. -/
def modifyArena {Answer : Type} (effect : Effect)
    (edit : ExpressionArena → ExpressionArena × Answer) : Effect × Answer :=
  let (arena, answer) := edit effect.arena
  ({ effect with arena, datasets := effect.datasets.map Dataset.markStale }, answer)

/-- Analyze a dataset, whether or not its last analysis stands. -/
def analyzeAnew (effect : Effect) (id : DatasetId) :
    Reply Effect (Except Fault Effort) :=
  match effect.dataset id with
  | .error fault => { state := effect, answer := .error fault }
  | .ok dataset =>
      (dataset.analyze effect.stage? effect.arena effect.options).mapState
        (effect.setDataset id)

/-- Analyze a dataset unless its last analysis stands. -/
def analyze (effect : Effect) (id : DatasetId) : Reply Effect (Except Fault Unit) :=
  match effect.dataset id with
  | .error fault => { state := effect, answer := .error fault }
  | .ok dataset =>
      if dataset.analyzed then { state := effect, answer := .ok () }
      else (effect.analyzeAnew id).mapAnswer fun answer => answer.map fun _ => ()

/-- Analyze the stale ones among some datasets, up to the first that fails. -/
def analyzeEach (stages : StageId → Option Stage) (arena : ExpressionArena)
    (options : AnalysisOptions) :
    List Dataset → Reply (List Dataset) (Except Fault Unit)
  | [] => { state := [], answer := .ok () }
  | dataset :: rest =>
      if dataset.analyzed then
        (analyzeEach stages arena options rest).mapState (dataset :: ·)
      else
        let first := dataset.analyze stages arena options
        match first.answer with
        | .error fault =>
            { state := first.state :: rest, events := first.events, answer := .error fault }
        | .ok _ =>
            let later := analyzeEach stages arena options rest
            { state := first.state :: later.state
              events := first.events ++ later.events
              answer := later.answer }

/-- Analyze every dataset whose last analysis does not stand, in order, up to the
first that fails. -/
def analyzeStale (effect : Effect) : Reply Effect (Except Fault Unit) :=
  (analyzeEach effect.stage? effect.arena effect.options effect.datasets).mapState
    fun datasets => { effect with datasets }

def textReport (effect : Effect) (id : DatasetId) : Except Fault String := do
  let dataset ← effect.dataset id
  return dataset.textReport effect.stage?

end Effect

end AttributeFlow
