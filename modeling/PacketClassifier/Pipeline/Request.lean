import PacketClassifier.Pipeline.Basic

/-!
# Requests about entries

A request about several tables is carried out table by table.  What would make a
table refuse it is looked for in advance, in every table it is about, because
nothing takes back what was done to the tables before the one that refuses.
-/

namespace PacketClassifier

/-- The outcome of a request, and the pipeline after it. -/
abbrev Pipeline.Response (α : Type) :=
  Except PipelineError α × Pipeline

namespace Pipeline

/--
Carry out a request on the tables that satisfy `chosen`, in order, until one
refuses it.  The result is the sum of the results.
-/
def onTables (chosen : Table → Bool)
    (request : Table → Ledger → Except RequestError (Nat × Table × Ledger)) :
    List Table → Ledger → Except RequestError Nat × List Table × Ledger
  | [], ledger => (.ok 0, [], ledger)
  | table :: rest, ledger =>
      if chosen table then
        match request table ledger with
        | .error cause => (.error cause, table :: rest, ledger)
        | .ok (count, table, ledger) =>
            let (result, rest, ledger) := onTables chosen request rest ledger
            (result.map (count + ·), table :: rest, ledger)
      else
        let (result, rest, ledger) := onTables chosen request rest ledger
        (result, table :: rest, ledger)

/-- Carry out a request on some of the tables of a pipeline. -/
def onEach (pipeline : Pipeline) (chosen : Table → Bool)
    (request : Table → Ledger → Except RequestError (Nat × Table × Ledger)) :
    Response Nat :=
  let (result, tables, ledger) :=
    onTables chosen request pipeline.tables pipeline.ledger
  (result.mapError .request, { pipeline with tables, ledger })

/-- Every table can carry out a request that not every matcher supports. -/
def checkSupport (tables : List Table) (operation : Operation) :
    Except PipelineError Unit :=
  match tables.find? (fun table => !table.matcher.supportsRemoval) with
  | some table => .error (.request (.unsupported table.kind operation))
  | none => .ok ()

/-- The next table of an entry suits the table `id` of the pipeline. -/
def checkNextTable (pipeline : Pipeline) (id : TableId) (entry : Entry) :
    Except PipelineError Unit :=
  (entry.instructions.checkNextTable id pipeline.tables.length).mapError
    (fun cause => .request (.invalid cause))

/-- An entry could be installed in a table. -/
def validate (pipeline : Pipeline) (id : TableId) (entry : Entry) :
    Except PipelineError Unit := do
  discard (pipeline.table id)
  pipeline.checkNextTable id entry
  (entry.instructions.checkGroups pipeline.hasGroup).mapError
    (fun cause => .request (.invalid cause))

/--
Install an entry in a table of the pipeline, wherever the next table of the entry
is.
-/
def install (pipeline : Pipeline) (table : Table) (entry : Entry)
    (checkOverlap reset : Bool) : Except RequestError AddOutcome × Pipeline :=
  match table.add pipeline.ledger pipeline.hasGroup entry checkOverlap reset with
  | .error cause => (.error cause, pipeline)
  | .ok (outcome, table, ledger) => (.ok outcome, pipeline.setTable table ledger)

def add (pipeline : Pipeline) (id : TableId) (entry : Entry)
    (checkOverlap reset : Bool) : Response AddOutcome :=
  match pipeline.validate id entry, pipeline.table id with
  | .error cause, _ | _, .error cause => (.error cause, pipeline)
  | .ok (), .ok table =>
      let (outcome, pipeline) := pipeline.install table entry checkOverlap reset
      (outcome.mapError .request, pipeline)

/-- What has to hold before a modification is carried out. -/
def checkModify (pipeline : Pipeline) (id : TableId) (template : Entry) :
    Except PipelineError Unit := do
  let targets ← pipeline.targets id
  targets.forM (fun table => pipeline.checkNextTable table.id template)
  checkSupport targets .modify

/--
Give the entries that a template designates its instructions, in one table or in
every table.  The result is the number of those entries.
-/
def modify (pipeline : Pipeline) (id : TableId) (template : Entry)
    (strictness : Strictness) (reset : Bool) : Response Nat :=
  match pipeline.checkModify id template with
  | .error cause => (.error cause, pipeline)
  | .ok () =>
      pipeline.onEach (fun table => Designates id table) (fun table ledger => do
        let (count, ledger) ←
          table.modify ledger pipeline.hasGroup template strictness reset
        return (count, table, ledger))

/-- What has to hold before a removal is carried out. -/
def checkRemove (pipeline : Pipeline) (id : TableId) :
    Except PipelineError Unit := do
  checkSupport (← pipeline.targets id) .remove

/--
Take the entries that a query selects out of one table or of every table.  The
result is their number.
-/
def remove (pipeline : Pipeline) (id : TableId) (query : Query) : Response Nat :=
  match pipeline.checkRemove id with
  | .error cause => (.error cause, pipeline)
  | .ok () =>
      pipeline.onEach (fun table => Designates id table)
        (fun table ledger => table.remove ledger (.selected query) .delete)

/-- Take every entry out of a table.  The result is their number. -/
def clear (pipeline : Pipeline) (id : TableId) (reason : RemovalReason) :
    Response Nat :=
  match pipeline.table id with
  | .error cause => (.error cause, pipeline)
  | .ok table =>
      let (count, table, ledger) := table.clear pipeline.ledger reason
      (.ok count, pipeline.setTable table ledger)

/-! ## Requests for statistics -/

/-- The statistics of the entries that a query selects, table by table. -/
def flowStatsByTable (pipeline : Pipeline) (id : TableId) (query : Query) :
    Except PipelineError (List (Table × List FlowReply)) := do
  let targets ← pipeline.targets id
  return targets.map
    (fun table => (table, table.matcher.flowStats pipeline.ledger query))

def flowStats (pipeline : Pipeline) (id : TableId) (query : Query) :
    Except PipelineError (List FlowReply) := do
  return (← pipeline.flowStatsByTable id query).flatMap (·.2)

def aggregate (pipeline : Pipeline) (id : TableId) (query : Query) :
    Except PipelineError Aggregate := do
  let targets ← pipeline.targets id
  return targets.foldl
    (fun sums table => sums + table.matcher.aggregate pipeline.ledger query) {}

end Pipeline

end PacketClassifier
