import PacketClassifier.Proofs.Pipeline.Order

/-!
# Where entries send packets next

An installed entry that sends packets on sends them to a later table of the pipeline.
This is checked for each table for which a request brings instructions, be it by a new
entry or by a modification of one table or of all.  So the way of a packet is never cut
short: it ends in a table where no entry catches the packet, or at an entry that sends it
nowhere.
-/

namespace PacketClassifier

/-- The next table, if there is one, comes after table `id` and is one of `count`. -/
def InstructionSet.HeadsOn (count : Nat) (id : TableId) (set : InstructionSet) : Prop :=
  ∀ next ∈ set.nextTable, id.number < next.number ∧ next.number.toNat < count

theorem InstructionSet.checkNextTable_eq_ok_iff {set : InstructionSet} {id : TableId}
    {count : Nat} : set.checkNextTable id count = .ok () ↔ set.HeadsOn count id := by
  unfold checkNextTable HeadsOn
  cases set.nextTable with
  | none => simp
  | some next => simp

namespace Pipeline

variable {pipeline : Pipeline} {count : Nat} {packet : Packet} {ledger : Ledger}

/--
The entries that a packet hits from a table on if it is sent wherever the instructions of
an entry say.  The way ends in a table where no entry catches the packet, or at an entry
that sends it nowhere.
-/
inductive Follows (pipeline : Pipeline) (packet : Packet) :
    TableId → List EntryRef → Prop where
  | missed {id : TableId} {table : Table}
      (placed : pipeline.tables[id.number.toNat]? = some table)
      (missed : table.find? packet = none) : Follows pipeline packet id []
  | final {id : TableId} {table : Table} {hit : EntryRef}
      (placed : pipeline.tables[id.number.toNat]? = some table)
      (found : table.find? packet = some hit)
      (ends : (pipeline.ledger.entry hit).instructions.nextTable = none) :
      Follows pipeline packet id [hit]
  | sent {id next : TableId} {table : Table} {hit : EntryRef} {hits : List EntryRef}
      (placed : pipeline.tables[id.number.toNat]? = some table)
      (found : table.find? packet = some hit)
      (goes : (pipeline.ledger.entry hit).instructions.nextTable = some next)
      (others : Follows pipeline packet next hits) :
      Follows pipeline packet id (hit :: hits)

/-- A packet that hits entries leaves them the instructions that it finds. -/
theorem same_instructions_of_classify {table : Table} {thread : ThreadId} {bytes : UInt64}
    {answer : Option EntryRef} {last : Ledger}
    (same : ∀ id, (ledger.state id).instructions = (pipeline.ledger.state id).instructions)
    (counted : table.classify ledger packet thread bytes = (answer, last)) :
    table.find? packet = answer ∧
      ∀ id, (last.state id).instructions = (pipeline.ledger.state id).instructions := by
  rw [Table.classify_eq] at counted
  obtain ⟨rfl, rfl⟩ := Prod.mk.inj counted
  refine ⟨rfl, fun id => ?_⟩
  cases table.find? packet with
  | none => exact same id
  | some hit => exact (ledger.instructions_hit hit thread bytes id).trans (same id)

/-- From a table that there is, a packet goes wherever the entries say. -/
theorem Orderly.follows_classifyFrom
    (orderly : pipeline.Orderly count (InstructionSet.HeadsOn count)) (packet : Packet)
    (thread : ThreadId) (bytes : UInt64) {current : TableId}
    (present : current.number.toNat < count)
    (same : ∀ id, (ledger.state id).instructions = (pipeline.ledger.state id).instructions) :
    pipeline.Follows packet current
      (classifyFrom pipeline.tables packet thread bytes current ledger).1 := by
  have place : ∀ {current : TableId} {found : Option Table},
      pipeline.tables.find? (fun table => table.id = current) = found →
        pipeline.tables[current.number.toNat]? = found :=
    fun {current _} found => (orderly.table?_eq current).symm.trans found
  have heads : ∀ {current : TableId} {table : Table} {hit : EntryRef},
      pipeline.tables.find? (fun table => table.id = current) = some table →
        table.find? packet = some hit →
          (pipeline.ledger.state hit.id).instructions.HeadsOn count current := by
    intro current table hit listed found
    obtain rfl : table.id = current := by simpa using List.find?_some listed
    have bears := orderly.arrayed.bears table (List.mem_of_find?_eq_some listed)
    exact bears.valid hit (bears.formed.mem_of_find? found)
  fun_induction classifyFrom pipeline.tables packet thread bytes current ledger with
  | case1 current ledger missing =>
      have absent := List.getElem?_eq_none_iff.mp (place missing)
      rw [orderly.length] at absent
      omega
  | case2 current ledger table listed last counted =>
      exact .missed (place listed) (same_instructions_of_classify same counted).1
  | case3 current ledger table listed hit last counted ends =>
      obtain ⟨found, same⟩ := same_instructions_of_classify same counted
      rw [same hit.id] at ends
      exact .final (place listed) found ends
  | case4 current ledger table listed hit last counted next goes later hits after
      counted' ih =>
      obtain ⟨found, same⟩ := same_instructions_of_classify same counted
      rw [same hit.id] at goes
      have others := ih (heads listed found next goes).2 same
      rw [counted'] at others
      exact .sent (place listed) found goes others
  | case5 current ledger table listed hit last counted next goes back =>
      -- the entry would send the packet back
      obtain ⟨found, same⟩ := same_instructions_of_classify same counted
      rw [same hit.id] at goes
      exact absurd (heads listed found next goes).1 back

/--
Along every run of a pipeline that a configuration describes, an entry in the table at
some place sends packets to no table or to one at a later place; and a packet is taken
wherever the entries that it hits send it.
-/
theorem run_headsOn {config : PipelineConfig} {groups : GroupSet} {start : Pipeline}
    (built : ofConfig config groups = .ok start) (requests : List Request) :
    (∀ place table, (start.run requests).tables[place]? = some table →
      ∀ ref ∈ table.matcher.entries, ∀ next,
        ((start.run requests).ledger.entry ref).instructions.nextTable = some next →
          place < next.number.toNat ∧ next.number.toNat < config.tables.length) ∧
      ∀ packet thread bytes, (start.run requests).Follows packet ⟨0⟩
        ((start.run requests).classify packet thread bytes).1 := by
  have orderly := (orderly_ofConfig built (InstructionSet.HeadsOn config.tables.length)).run
    (fun _ _ => InstructionSet.checkNextTable_eq_ok_iff.mp) requests
  constructor
  · intro place table placed ref installed next goes
    obtain ⟨below, rfl⟩ := List.getElem?_eq_some_iff.mp placed
    have bears := orderly.arrayed.bears _ (List.getElem_mem below)
    obtain ⟨later, present⟩ := bears.valid ref installed next goes
    rw [orderly.id_getElem below, UInt8.lt_iff_toNat_lt, UInt8.toNat_ofNat',
      Nat.mod_eq_of_lt (orderly.small (orderly.length ▸ below))] at later
    exact ⟨later, present⟩
  · intro packet thread bytes
    exact orderly.follows_classifyFrom packet thread bytes (bounds_of_ofConfig built).1
      fun _ => rfl

/-- Three tables without entries. -/
def relay : Pipeline where
  name := "p"
  tables := emptyTables [.trie, .list, .list]

/--
Requests that send packets through the three tables.  A modification of all of them is
refused because it would send packets from the last to itself, and a later one because it
would send packets beyond the last.
-/
def relayRequests : List Request :=
  let onward (next : UInt8) : Entry := { instructions := { nextTable := some ⟨next⟩ } }
  [.add ⟨0⟩ (onward 1) false false, .add ⟨1⟩ {} false false, .add ⟨2⟩ {} false false,
    .modify .all (onward 2) .nonStrict false, .modify ⟨1⟩ (onward 3) .nonStrict false,
    .modify ⟨1⟩ (onward 2) .nonStrict false]

theorem relay_run_headsOn :
    ofConfig { name := "p", tables := [.trie, .list, .list] } GroupSet.empty = .ok relay ∧
      ((relay.run relayRequests).classify Packet.empty 0 64).1.map (·.id) = [0, 1, 2] ∧
      (∀ place table, (relay.run relayRequests).tables[place]? = some table →
        ∀ ref ∈ table.matcher.entries, ∀ next,
          ((relay.run relayRequests).ledger.entry ref).instructions.nextTable = some next →
            place < next.number.toNat ∧ next.number.toNat < 3) ∧
      (relay.run relayRequests).Follows Packet.empty ⟨0⟩
        ((relay.run relayRequests).classify Packet.empty 0 64).1 := by
  have built : ofConfig { name := "p", tables := [.trie, .list, .list] } GroupSet.empty =
      .ok relay := rfl
  obtain ⟨heads, follows⟩ := run_headsOn built relayRequests
  exact ⟨built, by decide +kernel, heads, follows Packet.empty 0 64⟩

end Pipeline

end PacketClassifier
