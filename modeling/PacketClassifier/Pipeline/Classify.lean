import PacketClassifier.Pipeline.Basic

/-!
# The way of a packet

A packet starts in the first table.  The entry it hits there says in which table
it goes on, if any.  It never goes back, so it meets a table at most once,
whatever the entries say.
-/

namespace PacketClassifier.Pipeline

/--
Take a packet through tables from a given one on, and count it on every entry it
hits.  The result is those entries, in order.
-/
def classifyFrom (tables : List Table) (packet : Packet) (thread : ThreadId)
    (bytes : UInt64) (current : TableId) (ledger : Ledger) :
    List EntryRef × Ledger :=
  match tables.find? (fun table => table.id = current) with
  | none => ([], ledger)
  | some table =>
      match table.classify ledger packet thread bytes with
      | (none, ledger) => ([], ledger)
      | (some hit, ledger) =>
          match (ledger.state hit.id).instructions.nextTable with
          | none => ([hit], ledger)
          | some next =>
              if _ : current.number < next.number then
                let (hits, ledger) :=
                  classifyFrom tables packet thread bytes next ledger
                (hit :: hits, ledger)
              else
                ([hit], ledger)
termination_by 255 - current.number.toNat
decreasing_by
  rename_i later
  have := UInt8.lt_iff_toNat_lt.1 later
  have bound := next.number.toNat_lt
  omega

def classify (pipeline : Pipeline) (packet : Packet) (thread : ThreadId)
    (bytes : UInt64) : List EntryRef × Pipeline :=
  let (hits, ledger) :=
    classifyFrom pipeline.tables packet thread bytes ⟨0⟩ pipeline.ledger
  (hits, { pipeline with ledger })

/-- The entry of a table that a packet hits. -/
def find? (pipeline : Pipeline) (id : TableId) (packet : Packet) :
    Option EntryRef := do
  (← pipeline.table? id).find? packet

end PacketClassifier.Pipeline
