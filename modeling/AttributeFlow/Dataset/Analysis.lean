import AttributeFlow.Classification
import AttributeFlow.Dataset.Collection
import AttributeFlow.Dataset.TextReport

/-!
# Analyzing a dataset

An analysis collects the accesses of the owners from scratch and classifies the
attributes it has found.  Collection may stop partway, and then the table keeps
what was merged until then; a plan is replaced only by a complete one.  The
dataset counts as analyzed exactly after both parts have succeeded.
-/

namespace AttributeFlow

structure AnalysisOptions where
  /-- Report the text of each successful analysis as an event. -/
  logReport : Bool := false
  /-- The greatest number of passes; without it the declarations give one. -/
  maxPasses : Option UInt64 := none
  deriving DecidableEq

namespace Dataset

def retable (dataset : Dataset) (stages : StageId → Option Stage)
    (arena : ExpressionArena) (options : AnalysisOptions) :
    Reply Dataset (Except Fault Effort) :=
  (dataset.collect stages arena options.maxPasses).mapState
    fun table => { dataset with table }

def replan (dataset : Dataset) (stages : StageId → Option Stage) :
    Reply Dataset (Except Fault Unit) :=
  let run := Classification.ofTable dataset.table dataset.owners
    fun stage => (stages stage).map Stage.kind
  let events := run.verdicts.map fun verdict =>
    Event.classified verdict.attr verdict.key verdict.placement
  match run.plan with
  | .ok plan => { state := { dataset with plan }, events, answer := .ok () }
  | .error fault => { state := dataset, events, answer := .error fault }

def completionEvents (dataset : Dataset) (stages : StageId → Option Stage)
    (options : AnalysisOptions) (effort : Effort) : List Event :=
  .analysisCompleted effort.passes effort.merges dataset.table.attributes.length
      dataset.plan.shared.length
    :: if options.logReport then [.reported (dataset.textReport stages)] else []

/-- Collect the accesses of the owners, then classify the attributes. -/
def analyze (dataset : Dataset) (stages : StageId → Option Stage)
    (arena : ExpressionArena) (options : AnalysisOptions) :
    Reply Dataset (Except Fault Effort) :=
  let started := Event.analysisStarted dataset.id dataset.kind
  let collected := dataset.markStale.retable stages arena options
  match collected.answer with
  | .error fault =>
      { state := collected.state
        events := started :: collected.events
        answer := .error fault }
  | .ok effort =>
      let planned := collected.state.replan stages
      let events := started :: collected.events ++ planned.events
      match planned.answer with
      | .error fault => { state := planned.state, events, answer := .error fault }
      | .ok () =>
          let analyzed := { planned.state with analyzed := true }
          { state := analyzed
            events := events ++ analyzed.completionEvents stages options effort
            answer := .ok effort }

end Dataset

end AttributeFlow
