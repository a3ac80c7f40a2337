import AttributeFlow.Proofs.LimitedCollections

/-!
# Logs of collections

A collection reports each merge that changes the table and each pass whose merges were all
accepted.  That log is enough to make the collection again.  A reader that starts from an empty
table merges what it reads of, and finds that every reported merge changes its table, that
passes are counted from one on without gaps, and that each has as many rows as its own table.  At
the end of the log it has the table of the collection, whether or not that one was complete: the
merges which are not reported are those that change nothing.

The passes and merges that a collection tries are listed here by their answers, apart from any
report.
-/

namespace AttributeFlow

/-- What is reported of a pass. -/
structure PassNote where
  number : Nat
  rows : Nat
  changed : Bool
  deriving DecidableEq

namespace Event

/-- The access of a stage that was merged. -/
def merged? : Event → Option (StageId × Access)
  | .merged stage access => some (stage, access)
  | _ => none

def passNote? : Event → Option PassNote
  | .passCompleted _ number _ rows changed => some ⟨number, rows, changed⟩
  | _ => none

/-- The accesses that were merged, in order. -/
def mergedIn (log : List Event) : List (StageId × Access) :=
  log.filterMap merged?

/-- What is reported of the passes, in order. -/
def notesIn (log : List Event) : List PassNote :=
  log.filterMap passNote?

theorem mergedIn_append (first second : List Event) :
    mergedIn (first ++ second) = mergedIn first ++ mergedIn second :=
  List.filterMap_append

theorem notesIn_append (first second : List Event) :
    notesIn (first ++ second) = notesIn first ++ notesIn second :=
  List.filterMap_append

end Event

namespace AccessTable

/-- The answers to merging accesses one after the other, up to the first that is refused. -/
def mergeAnswers (table : AccessTable) : List (StageId × Access) → List (Except Fault Bool)
  | [] => []
  | (stage, access) :: rest =>
      match table.merge stage access with
      | .error fault => [.error fault]
      | .ok (next, changed) => .ok changed :: next.mergeAnswers rest

/-- Whether no merge was refused. -/
def allAccepted (answers : List (Except Fault Bool)) : Bool :=
  answers.all Except.isOk

/-- The answers to the merges of every pass that a collection begins.  A further pass is begun
if one is allowed and the last one was accepted and changed something. -/
def passAnswers (declarations : List Declaration) :
    Nat → AccessTable → List (List (Except Fault Bool))
  | 0, _ => []
  | allowed + 1, table =>
      let answers := table.mergeAnswers (table.resolve declarations)
      answers ::
        if allAccepted answers = true ∧ .ok true ∈ answers then
          passAnswers declarations allowed (table.pass declarations).table
        else []

/-- The table with a further access, which must change it. -/
def change? (table : AccessTable) (merged : StageId × Access) : Option AccessTable :=
  match table.merge merged.1 merged.2 with
  | .ok (next, true) => some next
  | _ => none

/-- Merge accesses one after the other, each of which must change the table. -/
def replay? (table : AccessTable) (accesses : List (StageId × Access)) : Option AccessTable :=
  accesses.foldlM change? table

variable {table : AccessTable} {declarations : List Declaration}

/-- The changes of a run are enough to make it again. -/
theorem replay?_changes (table : AccessTable) (accesses : List (StageId × Access)) :
    table.replay? (table.mergeAll accesses).changes = some (table.mergeAll accesses).table := by
  induction accesses generalizing table with
  | nil => rfl
  | cons first rest ih =>
      obtain ⟨stage, access⟩ := first
      cases merged : table.merge stage access with
      | error fault =>
          rw [mergeAll_cons_error merged]
          rfl
      | ok outcome =>
          obtain ⟨next, changed⟩ := outcome
          rw [mergeAll, merged]
          cases changed with
          | false => exact ih table
          | true =>
              have changes : table.change? (stage, access) = some next := by rw [change?, merged]
              rw [replay?, List.foldlM_cons, changes]
              exact ih next

theorem Coherent.count_mergeAnswers (coherent : table.Coherent)
    (accesses : List (StageId × Access)) :
    (table.mergeAnswers accesses).count (.ok true) = (table.mergeAll accesses).changes.length := by
  induction accesses generalizing table with
  | nil => rfl
  | cons first rest ih =>
      obtain ⟨stage, access⟩ := first
      cases merged : table.merge stage access with
      | error fault =>
          rw [mergeAll_cons_error merged, mergeAnswers, merged]
          rfl
      | ok outcome =>
          obtain ⟨next, changed⟩ := outcome
          rw [coherent.mergeAll_cons_ok merged, mergeAnswers, merged]
          dsimp only
          rw [List.count_cons, ih (coherent.merge merged), List.length_append, Nat.add_comm]
          cases changed <;> rfl

theorem Coherent.allAccepted_mergeAnswers (coherent : table.Coherent)
    (accesses : List (StageId × Access)) :
    allAccepted (table.mergeAnswers accesses) = (table.mergeAll accesses).fault?.isNone := by
  induction accesses generalizing table with
  | nil => rfl
  | cons first rest ih =>
      obtain ⟨stage, access⟩ := first
      cases merged : table.merge stage access with
      | error fault =>
          rw [mergeAll_cons_error merged, mergeAnswers, merged]
          rfl
      | ok outcome =>
          rw [coherent.mergeAll_cons_ok merged, mergeAnswers, merged]
          exact ih (coherent.merge merged)

/-- A pass is productive if its merges are accepted and one of them changes the table. -/
theorem Coherent.isProductive_iff (coherent : table.Coherent) :
    (table.pass declarations).IsProductive ↔
      allAccepted (table.mergeAnswers (table.resolve declarations)) = true
        ∧ .ok true ∈ table.mergeAnswers (table.resolve declarations) := by
  rw [MergeRun.IsProductive, coherent.allAccepted_mergeAnswers, Option.isNone_iff_eq_none,
    ← List.count_pos_iff, coherent.count_mergeAnswers, List.length_pos_iff]
  rfl

end AccessTable

/-- What is known after reading a log up to some place: the table, and the number of passes. -/
structure LogReader where
  table : AccessTable := {}
  passes : Nat := 0
  deriving DecidableEq

namespace LogReader

/-- Read one report.  A merge must change the table, and a pass must be the next one and have as
many rows as there are in the table.  A collection reports nothing else. -/
def read? (reader : LogReader) : Event → Option LogReader
  | .merged stage access =>
      (reader.table.change? (stage, access)).map fun table => { reader with table }
  | .passCompleted _ number _ rows _ =>
      if number = reader.passes + 1 ∧ rows = reader.table.size then
        some { reader with passes := number }
      else none
  | _ => none

def readAll? (reader : LogReader) (log : List Event) : Option LogReader :=
  log.foldlM read? reader

variable {reader last : LogReader} {log : List Event}

theorem readAll?_append {first : List Event} {middle : LogReader}
    (read : reader.readAll? first = some middle) :
    reader.readAll? (first ++ log) = middle.readAll? log := by
  rw [readAll?, List.foldlM_append, ← readAll?, read]
  rfl

/-- What is read comes to the same as merging the accesses that are reported, and passes are
numbered from the next one on. -/
theorem table_and_numbers_of_readAll? (read : reader.readAll? log = some last) :
    reader.table.replay? (Event.mergedIn log) = some last.table
      ∧ (Event.notesIn log).map PassNote.number =
        List.range' (reader.passes + 1) (Event.notesIn log).length
      ∧ last.passes = reader.passes + (Event.notesIn log).length := by
  induction log generalizing reader with
  | nil =>
      cases read
      exact ⟨rfl, rfl, rfl⟩
  | cons event log ih =>
      rw [readAll?, List.foldlM_cons] at read
      obtain ⟨next, readFirst, readRest⟩ := Option.bind_eq_some_iff.mp read
      obtain ⟨tableEq, numbersEq, passesEq⟩ := ih readRest
      cases event with
      | merged stage access =>
          obtain ⟨table, changes, rfl⟩ := Option.map_eq_some_iff.mp readFirst
          have mergedEq : Event.mergedIn (.merged stage access :: log) =
              (stage, access) :: Event.mergedIn log := rfl
          refine ⟨?_, numbersEq, passesEq⟩
          rw [mergedEq, AccessTable.replay?, List.foldlM_cons, changes]
          exact tableEq
      | passCompleted dataset number gathered rows changed =>
          obtain ⟨⟨rfl, _⟩, nextEq⟩ := Option.ite_none_right_eq_some.mp readFirst
          cases nextEq
          have notesEq : Event.notesIn (.passCompleted dataset (reader.passes + 1) gathered rows
              changed :: log) = ⟨reader.passes + 1, rows, changed⟩ :: Event.notesIn log := rfl
          refine ⟨tableEq, ?_, ?_⟩
          · rw [notesEq, List.map_cons, List.length_cons, List.range'_succ, numbersEq]
          · rw [notesEq, List.length_cons, passesEq, Nat.add_right_comm, Nat.add_assoc]
      | _ => cases readFirst

/-- The rows of a pass are those of the table that has been rebuilt before it. -/
theorem rows_of_readAll? {before later : List Event} {dataset : DatasetId}
    {number gathered rows : Nat} {changed : Bool}
    (read : reader.readAll?
      (before ++ .passCompleted dataset number gathered rows changed :: later) = some last) :
    ∃ table, reader.table.replay? (Event.mergedIn before) = some table ∧ rows = table.size := by
  rw [readAll?, List.foldlM_append] at read
  obtain ⟨middle, readBefore, readRest⟩ := Option.bind_eq_some_iff.mp read
  rw [List.foldlM_cons] at readRest
  obtain ⟨_, readPass, _⟩ := Option.bind_eq_some_iff.mp readRest
  obtain ⟨⟨_, rowsEq⟩, _⟩ := Option.ite_none_right_eq_some.mp readPass
  exact ⟨middle.table, (table_and_numbers_of_readAll? readBefore).1, rowsEq⟩

end LogReader

namespace AccessTable

variable {table : AccessTable} {declarations : List Declaration} {dataset : DatasetId}

theorem mergedIn_mergeEvents (declarations : List Declaration) (table : AccessTable) :
    Event.mergedIn (table.mergeEvents declarations) = (table.pass declarations).changes := by
  rw [Event.mergedIn, mergeEvents, List.filterMap_map]
  exact List.filterMap_some

theorem notesIn_mergeEvents (declarations : List Declaration) (table : AccessTable) :
    Event.notesIn (table.mergeEvents declarations) = [] := by
  rw [Event.notesIn, mergeEvents, List.filterMap_map, List.filterMap_eq_nil_iff]
  exact fun _ _ => rfl

theorem mergedIn_passEvents (number : Nat) :
    Event.mergedIn (passEvents dataset declarations number table) =
      (table.pass declarations).changes := by
  rw [passEvents, Event.mergedIn_append, mergedIn_mergeEvents]
  exact List.append_nil _

theorem notesIn_passEvents (number : Nat) :
    Event.notesIn (passEvents dataset declarations number table) =
      [⟨number, (table.pass declarations).table.size,
        !(table.pass declarations).changes.isEmpty⟩] := by
  rw [passEvents, Event.notesIn_append, notesIn_mergeEvents]
  rfl

/-- Reading of merges comes to the same as making them. -/
theorem readAll?_merges (reader : LogReader) (accesses : List (StageId × Access)) :
    reader.readAll? (accesses.map fun (stage, access) => .merged stage access) =
      (reader.table.replay? accesses).map fun table => { reader with table } := by
  induction accesses generalizing reader with
  | nil => rfl
  | cons first rest ih =>
      rw [List.map_cons, LogReader.readAll?, List.foldlM_cons, replay?, List.foldlM_cons,
        LogReader.read?]
      cases changed : reader.table.change? first with
      | none => rfl
      | some next => exact ih { reader with table := next }

theorem readAll?_mergeEvents (declarations : List Declaration) (table : AccessTable)
    (passes : Nat) :
    LogReader.readAll? ⟨table, passes⟩ (table.mergeEvents declarations) =
      some ⟨(table.pass declarations).table, passes⟩ := by
  have replayed : table.replay? (table.pass declarations).changes = _ :=
    replay?_changes table (table.resolve declarations)
  rw [mergeEvents, readAll?_merges, replayed]
  rfl

theorem readAll?_passEvents (declarations : List Declaration) (table : AccessTable)
    (passes : Nat) :
    LogReader.readAll? ⟨table, passes⟩ (passEvents dataset declarations (passes + 1) table) =
      some ⟨(table.pass declarations).table, passes + 1⟩ := by
  rw [passEvents, LogReader.readAll?_append (readAll?_mergeEvents declarations table passes)]
  simp [LogReader.readAll?, LogReader.read?]

/-- The log of a collection that began with a table and after some passes and merges tells of
the merges and passes that were tried: of all that were accepted if the collection is complete,
and only the last of these has changed nothing. -/
structure TellsOf (reply : Reply AccessTable (Except Fault Effort))
    (answers : List (List (Except Fault Bool))) (table : AccessTable) (effort : Effort) :
    Prop where
  readAll?_eq : LogReader.readAll? ⟨table, effort.passes⟩ reply.events =
    some ⟨reply.state, effort.passes + answers.countP allAccepted⟩
  merged_length : (Event.mergedIn reply.events).length = answers.flatten.count (.ok true)
  complete : ∀ spent, reply.answer = .ok spent →
    spent = ⟨effort.passes + answers.length, effort.merges + answers.flatten.count (.ok true)⟩
      ∧ answers.countP allAccepted = answers.length
      ∧ ∃ productive, answers.length = productive + 1
        ∧ (Event.notesIn reply.events).map PassNote.changed =
          List.replicate productive true ++ [false]

variable {effort : Effort}

/-- The last pass is refused, or it changes nothing and completes the collection. -/
theorem Coherent.tellsOf_last (coherent : table.Coherent)
    (last : ¬ (table.pass declarations).IsProductive) :
    TellsOf (lastReply dataset declarations effort table)
      [table.mergeAnswers (table.resolve declarations)] table effort := by
  have counted := coherent.count_mergeAnswers (table.resolve declarations)
  have accepted := coherent.allAccepted_mergeAnswers (table.resolve declarations)
  rw [← pass] at counted accepted
  cases stopped : (table.pass declarations).fault? with
  | some fault =>
      rw [stopped, Option.isNone_some] at accepted
      rw [lastReply, stopped]
      refine ⟨?_, ?_, ?_⟩
      · simpa [accepted] using readAll?_mergeEvents declarations table effort.passes
      · rw [mergedIn_mergeEvents, ← counted, List.flatten_singleton]
      · rintro _ ⟨⟩
  | none =>
      rw [stopped, Option.isNone_none] at accepted
      have unchanged : (table.pass declarations).changes = [] := by
        by_contra changed
        exact last ⟨stopped, changed⟩
      rw [unchanged, List.length_nil] at counted
      rw [lastReply, stopped]
      refine ⟨?_, ?_, ?_⟩
      · simpa [accepted] using readAll?_passEvents declarations table effort.passes
      · rw [mergedIn_passEvents, unchanged, List.flatten_singleton, counted, List.length_nil]
      · rintro _ ⟨⟩
        refine ⟨?_, by simp [accepted], 0, rfl, ?_⟩
        · rw [List.flatten_singleton, counted]
          rfl
        · rw [notesIn_passEvents, unchanged]
          rfl

/-- The log of a collection tells of what was tried, whatever came of it. -/
theorem Reached.tellsOf_collectPasses (reached : table.Reached) (dataset : DatasetId)
    (declarations : List Declaration) (limit allowed : Nat) (effort : Effort) :
    TellsOf (collectPasses dataset declarations limit allowed table effort)
      (passAnswers declarations allowed table) table effort := by
  induction allowed generalizing table effort with
  | zero => exact ⟨rfl, rfl, by rintro _ ⟨⟩⟩
  | succ allowed ih =>
      have coherent := reached.coherent
      rw [passAnswers]
      by_cases productive : (table.pass declarations).IsProductive
      · have accepted := (coherent.isProductive_iff.mp productive).1
        have counted := coherent.count_mergeAnswers (table.resolve declarations)
        rw [← pass] at counted
        have changed : (table.pass declarations).changes.isEmpty = false := by
          simpa using productive.2
        have later := ih (reached.mergeAll (table.resolve declarations))
          ⟨effort.passes + 1, effort.merges + (table.pass declarations).changes.length⟩
        rw [← pass] at later
        rw [if_pos (coherent.isProductive_iff.mp productive),
          collectPasses_of_productive productive]
        refine ⟨?_, ?_, ?_⟩
        · dsimp only
          rw [LogReader.readAll?_append (readAll?_passEvents declarations table effort.passes),
            later.readAll?_eq, List.countP_cons_of_pos accepted]
          simp only [Nat.add_assoc, Nat.add_comm 1]
        · dsimp only
          rw [Event.mergedIn_append, mergedIn_passEvents, List.length_append, later.merged_length,
            List.flatten_cons, List.count_append, counted]
        · intro spent spentEq
          obtain ⟨effortEq, allAccepted, made, lengthEq, changedEq⟩ := later.complete spent spentEq
          refine ⟨?_, ?_, made + 1, ?_, ?_⟩
          · rw [effortEq, List.length_cons, List.flatten_cons, List.count_append, counted]
            simp only [Nat.add_assoc, Nat.add_comm 1]
          · rw [List.countP_cons_of_pos accepted, allAccepted, List.length_cons]
          · rw [List.length_cons, lengthEq]
          · rw [Event.notesIn_append, notesIn_passEvents, List.map_append, changedEq, changed]
            rfl
      · rw [if_neg (coherent.isProductive_iff.not.mp productive),
          collectPasses_of_not_productive productive]
        exact coherent.tellsOf_last productive

end AccessTable

namespace Dataset

/-- The answers to the merges of every pass that the collection of a dataset begins. -/
def passAnswers (dataset : Dataset) (stages : StageId → Option Stage) (arena : ExpressionArena)
    (options : AnalysisOptions) : List (List (Except Fault Bool)) :=
  match dataset.declarations stages arena with
  | .error _ => []
  | .ok declarations =>
      let limit := options.maxPasses.elim (Declaration.passLimit declarations) UInt64.toNat
      AccessTable.passAnswers declarations limit {}

theorem tellsOf_collect (dataset : Dataset) (stages : StageId → Option Stage)
    (arena : ExpressionArena) (options : AnalysisOptions) :
    AccessTable.TellsOf (dataset.collect stages arena options.maxPasses)
      (dataset.passAnswers stages arena options) {} {} := by
  rw [passAnswers]
  cases declared : dataset.declarations stages arena with
  | error fault =>
      rw [collect, declared]
      split <;> exact ⟨rfl, rfl, by rintro _ ⟨⟩⟩
  | ok declarations =>
      rw [collect_eq_collectPasses declared]
      exact AccessTable.Reached.empty.tellsOf_collectPasses _ _ _ _ _

/-- Whatever comes of a collection, it reports as many merges as have changed the table.
Repeating these alone changes an empty table every time and gives the table of the collection,
with its rows in their order.  Passes are reported by their numbers, from one on and without
gaps: each one whose merges were all accepted, with the number of rows that the table has after
repeating the merges reported before.  A complete collection has made as many merges and passes
as it reports, and the last pass alone has changed nothing. -/
theorem log_retraces_collection (dataset : Dataset) (stages : StageId → Option Stage)
    (arena : ExpressionArena) (options : AnalysisOptions) :
    let after := dataset.retable stages arena options
    let answers := dataset.passAnswers stages arena options
    let merged := Event.mergedIn after.events
    let notes := Event.notesIn after.events
    merged.length = answers.flatten.count (.ok true)
      ∧ AccessTable.replay? {} merged = some after.state.table
      ∧ notes.map PassNote.number = List.range' 1 notes.length
      ∧ notes.length = answers.countP AccessTable.allAccepted
      ∧ (∀ before later name number gathered rows changed,
        after.events = before ++ .passCompleted name number gathered rows changed :: later →
          ∃ table, AccessTable.replay? {} (Event.mergedIn before) = some table
            ∧ rows = table.size)
      ∧ ∀ effort, after.answer = .ok effort →
        merged.length = effort.merges ∧ notes.length = effort.passes
          ∧ answers.length = effort.passes
          ∧ notes.map PassNote.changed = List.replicate (effort.passes - 1) true ++ [false] := by
  intro after answers merged notes
  have tells : AccessTable.TellsOf _ answers {} {} := dataset.tellsOf_collect stages arena options
  have read : LogReader.readAll? {} after.events = _ := tells.readAll?_eq
  obtain ⟨replayed, numbersEq, passesEq⟩ := LogReader.table_and_numbers_of_readAll? read
  have notesEq : notes.length = answers.countP AccessTable.allAccepted := by
    simpa using passesEq.symm
  refine ⟨tells.merged_length, replayed, numbersEq, notesEq, ?_, ?_⟩
  · intro before later name number gathered rows changed eventsEq
    rw [eventsEq] at read
    exact LogReader.rows_of_readAll? read
  · intro effort complete
    obtain ⟨effortEq, allAccepted, productive, lengthEq, changedEq⟩ := tells.complete effort complete
    rw [Nat.zero_add, Nat.zero_add] at effortEq
    rw [effortEq]
    refine ⟨tells.merged_length, notesEq.trans allAccepted, rfl, ?_⟩
    rw [lengthEq]
    exact changedEq

/-- One stage triggers a chain of accesses and declares the first of them twice.  The other one
is refused in its second pass, after a merge that changes the table and belongs to no pass that
is reported. -/
theorem log_retraces_collection_chain :
    let chain : Stage :=
      { kind := .update
        usages := [.whenUsed (.read .velocity) .age, .whenUsed (.write .age) .position,
          .always (.read .position), .always (.read .position)] }
    let refused : Stage :=
      { kind := .update
        usages := [.always (.read .position), .whenUsed (.read .size) .position,
          .whenUsed ⟨.color, ⟨0⟩⟩ .position] }
    let dataset : Dataset := { id := ⟨0⟩, kind := .particle, owners := [⟨0⟩] }
    let complete := dataset.retable (fun _ => some chain) {} {}
    let stopped := dataset.retable (fun _ => some refused) {} {}
    complete.answer = .ok ⟨4, 3⟩
      ∧ AccessTable.replay? {}
          [(⟨0⟩, .read .position), (⟨0⟩, .write .age), (⟨0⟩, .read .velocity)] =
        some complete.state.table
      ∧ (Event.notesIn complete.events).map PassNote.changed = [true, true, true, false]
      ∧ stopped.answer = .error (.emptyAccess .color ⟨0⟩)
      ∧ AccessTable.replay? {} [(⟨0⟩, .read .position), (⟨0⟩, .read .size)] =
        some stopped.state.table
      ∧ Event.notesIn stopped.events = [⟨1, 1, true⟩] := by
  intro chain refused dataset complete stopped
  have answered : complete.answer = .ok ⟨4, 3⟩ := by decide
  have completeMerged : Event.mergedIn complete.events =
      [(⟨0⟩, .read .position), (⟨0⟩, .write .age), (⟨0⟩, .read .velocity)] := by decide
  have stoppedMerged : Event.mergedIn stopped.events =
      [(⟨0⟩, .read .position), (⟨0⟩, .read .size)] := by decide
  have retraced := log_retraces_collection dataset (fun _ => some chain) {} {}
  have retracedStopped := log_retraces_collection dataset (fun _ => some refused) {} {}
  refine ⟨answered, ?_, (retraced.2.2.2.2.2 _ answered).2.2.2, by decide, ?_, by decide⟩
  · rw [← completeMerged]
    exact retraced.2.1
  · rw [← stoppedMerged]
    exact retracedStopped.2.1

end Dataset

end AttributeFlow
