import PacketClassifier.Pipeline.Request

/-!
# Requests about groups

A group goes with the entries that send packets to it, so no entry ever sends
packets to a group that does not exist.  A group is kept if one of its users is
in a table that cannot give up entries.
-/

namespace PacketClassifier.Pipeline

def addGroup (pipeline : Pipeline) (group : GroupId) : Response Unit :=
  if pipeline.hasGroup group then
    (.error (.groupExists group), pipeline)
  else
    (.ok (), { pipeline with groups := pipeline.groups.insert group })

/-- Take a group out, whatever uses it. -/
def dropGroup (pipeline : Pipeline) (group : GroupId) : Bool × Pipeline :=
  (pipeline.hasGroup group,
    { pipeline with groups := pipeline.groups.erase group })

/-- The first table that keeps a group from being removed, if any. -/
def holder? (pipeline : Pipeline) (group : GroupId) : Option Table :=
  pipeline.tables.find? (fun table =>
    !table.matcher.supportsRemoval &&
      !(table.matcher.usersOf pipeline.ledger group).isEmpty)

/-- A query for the entries that send packets to a group. -/
def usersQuery (group : GroupId) : Query where
  filter := { group }

/--
Take a group out, and with it the entries that send packets to it.  The result
is the number of those entries.
-/
def removeGroup (pipeline : Pipeline) (group : GroupId) : Response Nat :=
  if !pipeline.hasGroup group then
    (.error (.noSuchGroup group), pipeline)
  else
    match pipeline.holder? group with
    | some table => (.error (.groupInUse group table.id), pipeline)
    | none =>
        let pipeline := { pipeline with groups := pipeline.groups.erase group }
        pipeline.onEach (fun table => table.matcher.supportsRemoval)
          (fun table ledger =>
            table.remove ledger (.selected (usersQuery group)) .groupDelete)

end PacketClassifier.Pipeline
