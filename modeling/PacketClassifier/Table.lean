import PacketClassifier.Statistics

/-!
# Flow tables

A table is a matcher with a number of its own.  It counts its entries, makes
sure that the groups its entries send packets to exist, and sees to the
counters and notices of entries that leave it.  What may change of an entry is
in the ledger, which a table shares with whoever holds on to its entries.
-/

namespace PacketClassifier

/-- What a request to add an entry did. -/
inductive AddOutcome where
  | added
  | replaced
deriving DecidableEq

structure Table where
  id : TableId
  matcher : Matcher
  /-- The number of entries, kept up to date by every request. -/
  count : Nat
deriving DecidableEq, Inhabited

namespace Table

/-- A table on top of a matcher. -/
def ofMatcher (id : TableId) (matcher : Matcher) : Table where
  id
  matcher
  count := matcher.size

def kind (table : Table) : MatcherKind :=
  table.matcher.kind

/--
Install an entry.  An entry of the same priority and conjunction gives way to
it and leaves it its counters, unless they are to be reset.
-/
def add (table : Table) (ledger : Ledger) (exists? : GroupId → Bool)
    (entry : Entry) (checkOverlap reset : Bool) :
    Except RequestError (AddOutcome × Table × Ledger) := do
  (entry.instructions.checkGroups exists?).mapError .invalid
  let (ref, ledger) := ledger.register entry
  let change ← table.matcher.planAdd ref checkOverlap
  let ledger := ledger.update ref (fun state => state.attach table.id)
  let matcher := table.matcher.apply change
  match change with
  | .replace old _ =>
      let ledger := if reset then ledger else
        ledger.update ref (fun state => state.fold (ledger.entry old).counters)
      return (.replaced, { table with matcher }, ledger.dismiss .unreported old)
  | _ => return (.added, { table with matcher, count := table.count + 1 }, ledger)

/--
Give the entries that a template designates its instructions, and set their
counters back to zero if asked for.  The result is the number of those entries.
-/
def modify (table : Table) (ledger : Ledger) (exists? : GroupId → Bool)
    (template : Entry) (strictness : Strictness) (reset : Bool) :
    Except RequestError (Nat × Ledger) := do
  (template.instructions.checkGroups exists?).mapError .invalid
  let chosen ← table.matcher.planModify ledger template strictness
  return (chosen.length, ledger.updateAll chosen
    (fun state => state.replaceInstructions template.instructions reset))

/-- Take entries out.  The result is their number. -/
def remove (table : Table) (ledger : Ledger) (target : RemovalTarget)
    (reason : RemovalReason) : Except RequestError (Nat × Table × Ledger) := do
  let change ← table.matcher.planRemove ledger target
  let gone := change.evicted
  if gone.isEmpty then
    return (0, table, ledger)
  else
    let left : Table :=
      { table with
        matcher := table.matcher.apply change
        count := table.count - gone.length }
    return (gone.length, left, ledger.dismissAll reason gone)

/-- Take every entry out.  The result is their number. -/
def clear (table : Table) (ledger : Ledger) (reason : RemovalReason) :
    Nat × Table × Ledger :=
  let gone := table.matcher.entries
  if gone.isEmpty then
    (0, table, ledger)
  else
    (gone.length,
      { table with matcher := table.matcher.apply .clear, count := 0 },
      ledger.dismissAll reason gone)

def find? (table : Table) (packet : Packet) : Option EntryRef :=
  table.matcher.find? packet

/-- The entry that a packet of `bytes` bytes hits, with the packet counted. -/
def classify (table : Table) (ledger : Ledger) (packet : Packet)
    (thread : ThreadId) (bytes : UInt64) : Option EntryRef × Ledger :=
  match table.find? packet with
  | none => (none, ledger)
  | some hit => (some hit, ledger.update hit (fun state => state.hit thread bytes))

/-- A table as written in dumps. -/
def text (table : Table) (ledger : Ledger) : String :=
  " ──────── Flow table " ++ table.id.text ++ " (" ++ table.kind.text ++
    ") ────────\n" ++ table.matcher.text ledger

/-- A table with its parts, save its entries. -/
def structuralText (table : Table) : String :=
  "FlowTable \x7b id: " ++ table.id.structuralText ++ ", kind: " ++
    table.kind.memberName ++ ", entries: " ++ Text.decimal table.count ++
    ", .. \x7d"

end Table

end PacketClassifier
