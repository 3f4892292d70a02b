import PacketClassifier.Config
import PacketClassifier.GroupSet
import PacketClassifier.Table

/-!
# Pipelines

A pipeline is a row of tables that share a set of groups and a ledger.  Tables
are known by their numbers, which count from zero; the last number of the range
stands for every table in requests that can be about more than one.
-/

namespace PacketClassifier

/-- Why a request to a pipeline was refused. -/
inductive PipelineError where
  | noSuchTable (table : TableId)
  | groupExists (group : GroupId)
  | noSuchGroup (group : GroupId)
  /-- Entries of a table that cannot give up entries send packets to the group. -/
  | groupInUse (group : GroupId) (table : TableId)
  /-- A table refused the request, or would refuse it. -/
  | request (cause : RequestError)
  /-- The configuration of the pipeline is refused. -/
  | config (cause : ConfigError)
deriving DecidableEq

def PipelineError.message? : PipelineError → Option String
  | .noSuchTable table => some ("No such table: " ++ table.text)
  | .groupExists group => some ("Group " ++ group.text ++ " already exists")
  | .noSuchGroup group => some ("No such group: " ++ group.text)
  | .groupInUse group table =>
      some ("Group " ++ group.text ++ " is in use by table " ++ table.text ++
        ", whose entries cannot be removed")
  | .request cause => some cause.message
  | .config cause => cause.message?

/-- A row of tables with the groups and the ledger they share. -/
structure Pipeline where
  name : String
  tables : List Table
  groups : GroupSet := GroupSet.empty
  ledger : Ledger := {}
deriving DecidableEq, Inhabited

namespace Pipeline

/-- The tables of a configuration, numbered from zero, without entries. -/
def emptyTables (kinds : List MatcherKind) : List Table :=
  kinds.zipIdx.map (fun (kind, position) =>
    .ofMatcher ⟨UInt8.ofNat position⟩ (.empty kind))

/-- The pipeline that a configuration describes, with the groups that exist. -/
def ofConfig (config : PipelineConfig) (groups : GroupSet) :
    Except PipelineError Pipeline := do
  config.validate.mapError .config
  return { name := config.name, tables := emptyTables config.tables, groups }

/-- The table of a given number. -/
def table? (pipeline : Pipeline) (id : TableId) : Option Table :=
  pipeline.tables.find? (fun table => table.id = id)

/-- The table of a given number, which has to exist. -/
def table (pipeline : Pipeline) (id : TableId) : Except PipelineError Table :=
  match pipeline.table? id with
  | some table => .ok table
  | none => .error (.noSuchTable id)

/-- The table has the given number, or the number stands for every table. -/
def Designates (id : TableId) (table : Table) : Prop :=
  id = TableId.all ∨ table.id = id

instance (id : TableId) (table : Table) : Decidable (Designates id table) :=
  inferInstanceAs (Decidable (_ ∨ _))

/-- The tables a number designates; a number of its own is that of a table. -/
def targets (pipeline : Pipeline) (id : TableId) :
    Except PipelineError (List Table) := do
  if id ≠ TableId.all then
    discard (pipeline.table id)
  return pipeline.tables.filter (fun table => Designates id table)

/-- A group exists in the pipeline. -/
def hasGroup (pipeline : Pipeline) (group : GroupId) : Bool :=
  pipeline.groups.contains group

/-- Put a table in the place of the one with its number. -/
def setTable (pipeline : Pipeline) (table : Table) (ledger : Ledger) : Pipeline :=
  { pipeline with
    tables := pipeline.tables.map
      (fun other => if other.id = table.id then table else other)
    ledger }

end Pipeline

end PacketClassifier
