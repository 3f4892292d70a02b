import PacketClassifier.Proofs.Notices
import PacketClassifier.Proofs.Pipeline.NextTables
import PacketClassifier.Proofs.Tally

/-!
# The way of a packet, whatever entries say

A table can be asked past its pipeline, which then does not check where entries send
packets.  A packet is safe from that: it goes to later tables only, so it comes to a table
at most once, and stops where an entry would send it back or to a table that there is not.
No entry is in two tables, so it is counted once on each entry that it hits.
-/

namespace PacketClassifier.Pipeline

variable {pipeline : Pipeline} {packet : Packet} {thread : ThreadId} {bytes : UInt64}
  {count : Nat} {start next : TableId} {table : Table} {hit : EntryRef} {ledger : Ledger}
  {tables : List Table} {stops : List (TableId × EntryRef)}

/-! ## Ways -/

/-- An entry that a packet hits in a table sends it no further. -/
inductive Ends (pipeline : Pipeline) (packet : Packet) (id : TableId) (hit : EntryRef) :
    Prop where
  | final (nowhere : (pipeline.ledger.entry hit).instructions.nextTable = none)
  | back {next : TableId}
      (goes : (pipeline.ledger.entry hit).instructions.nextTable = some next)
      (back : next.number ≤ id.number)
  | absent {next : TableId}
      (goes : (pipeline.ledger.entry hit).instructions.nextTable = some next)
      (absent : pipeline.table? next = none)
  | missed {next : TableId} {table : Table}
      (goes : (pipeline.ledger.entry hit).instructions.nextTable = some next)
      (listed : pipeline.table? next = some table) (missed : table.find? packet = none)

/-- The tables in which a packet hits an entry, from `start` on, each with the entry. -/
structure Way (pipeline : Pipeline) (packet : Packet) (start : TableId)
    (stops : List (TableId × EntryRef)) : Prop where
  starts : ∀ stop ∈ stops.head?, stop.1 = start
  /-- In each table the packet hits the entry that is found there. -/
  found : ∀ stop ∈ stops, pipeline.find? stop.1 packet = some stop.2
  increasing : stops.Pairwise (fun stop later => stop.1.number < later.1.number)
  /-- Each entry sends the packet to the table that comes next. -/
  sent : stops.IsChain (fun stop later =>
    (pipeline.ledger.entry stop.2).instructions.nextTable = some later.1)
  ends : ∀ stop ∈ stops.getLast?, pipeline.Ends packet stop.1 stop.2
  /-- Without a hit, the packet was missed in the first table already. -/
  missed : stops = [] → pipeline.find? start packet = none

theorem find?_eq_of_table? (listed : pipeline.table? start = some table) :
    pipeline.find? start packet = table.find? packet := by
  rw [find?, listed]
  rfl

theorem exists_table_of_find? (found : pipeline.find? start packet = some hit) :
    ∃ table ∈ pipeline.tables, table.id = start ∧ table.find? packet = some hit := by
  obtain ⟨table, listed, found⟩ := Option.bind_eq_some_iff.mp found
  exact ⟨table, List.mem_of_find?_eq_some listed, by simpa using List.find?_some listed,
    found⟩

namespace Way

theorem nil (missed : pipeline.find? start packet = none) :
    pipeline.Way packet start [] where
  starts _ member := absurd member (by simp)
  found _ member := absurd member List.not_mem_nil
  increasing := List.Pairwise.nil
  sent := .nil
  ends _ member := absurd member (by simp)
  missed _ := missed

theorem single (found : pipeline.find? start packet = some hit)
    (ends : pipeline.Ends packet start hit) : pipeline.Way packet start [(start, hit)] where
  starts := by simp
  found := by simpa using found
  increasing := List.pairwise_singleton ..
  sent := .singleton _
  ends := by simpa using ends
  missed none := absurd none (by simp)

/-- An entry that sends the packet to a later table comes before the way from there. -/
theorem cons (way : pipeline.Way packet next stops)
    (found : pipeline.find? start packet = some hit)
    (goes : (pipeline.ledger.entry hit).instructions.nextTable = some next)
    (later : start.number < next.number) :
    pipeline.Way packet start ((start, hit) :: stops) := by
  cases stops with
  | nil =>
      -- nothing is hit where the packet is sent, so the way ends before
      refine single found ?_
      have missed := way.missed rfl
      cases listed : pipeline.table? next with
      | none => exact .absent goes listed
      | some table => exact .missed goes listed (find?_eq_of_table? listed ▸ missed)
  | cons first rest =>
      have own : first.1 = next := way.starts first rfl
      constructor
      · simp
      · rintro stop (_ | ⟨_, member⟩)
        · exact found
        · exact way.found stop member
      · refine List.pairwise_cons.mpr ⟨fun stop member => ?_, way.increasing⟩
        rcases List.mem_cons.mp member with rfl | behind
        · exact own ▸ later
        · exact UInt8.lt_trans later
            (own ▸ (List.pairwise_cons.mp way.increasing).1 stop behind)
      · exact List.isChain_cons_cons.mpr ⟨own ▸ goes, way.sent⟩
      · exact way.ends
      · exact fun none => absurd none (by simp)

/-- A way comes to no more tables than there are. -/
theorem length_le (way : pipeline.Way packet start stops) :
    stops.length ≤ pipeline.tables.length := by
  have distinct : (stops.map (·.1)).Nodup :=
    List.pairwise_map.mpr (way.increasing.imp fun later same => by
      rw [same] at later
      exact UInt8.lt_irrefl _ later)
  have listed : stops.map (·.1) ⊆ pipeline.tables.map (·.id) := by
    intro id member
    obtain ⟨stop, visited, rfl⟩ := List.mem_map.mp member
    obtain ⟨table, member, own, -⟩ := exists_table_of_find? (way.found stop visited)
    exact List.mem_map.mpr ⟨table, member, own⟩
  simpa using (distinct.subperm listed).length_le

end Way

/-- A packet takes a way: to be counted on entries does not change where they send it. -/
theorem exists_way_classifyFrom (packet : Packet) (thread : ThreadId) (bytes : UInt64)
    (start : TableId)
    (same : ∀ id, (ledger.state id).instructions = (pipeline.ledger.state id).instructions) :
    ∃ stops, pipeline.Way packet start stops ∧
      (classifyFrom pipeline.tables packet thread bytes start ledger).1 =
        stops.map (·.2) := by
  fun_induction classifyFrom pipeline.tables packet thread bytes start ledger with
  | case1 start ledger missing =>
      exact ⟨[], .nil (by rw [find?, table?, missing]; rfl), rfl⟩
  | case2 start ledger table listed last counted =>
      obtain ⟨missed, -⟩ := same_instructions_of_classify same counted
      exact ⟨[], .nil ((find?_eq_of_table? listed).trans missed), rfl⟩
  | case3 start ledger table listed hit last counted ends =>
      obtain ⟨found, same⟩ := same_instructions_of_classify same counted
      rw [same hit.id] at ends
      exact ⟨_, .single ((find?_eq_of_table? listed).trans found) (.final ends), rfl⟩
  | case4 start ledger table listed hit last counted next goes later hits after
      counted' ih =>
      obtain ⟨found, same⟩ := same_instructions_of_classify same counted
      rw [same hit.id] at goes
      obtain ⟨stops, way, others⟩ := ih same
      rw [counted'] at others
      exact ⟨_, way.cons ((find?_eq_of_table? listed).trans found) goes later,
        congrArg (hit :: ·) others⟩
  | case5 start ledger table listed hit last counted next goes back =>
      obtain ⟨found, same⟩ := same_instructions_of_classify same counted
      rw [same hit.id] at goes
      exact ⟨_, .single ((find?_eq_of_table? listed).trans found)
        (.back goes (UInt8.not_lt.mp back)), rfl⟩

/-! ## Counts -/

/-- What a packet does to the ledger is to count on the entries that it hits. -/
theorem ledger_classifyFrom (tables : List Table) (packet : Packet) (thread : ThreadId)
    (bytes : UInt64) (start : TableId) (ledger : Ledger) :
    (classifyFrom tables packet thread bytes start ledger).2 =
      ledger.updateAll (classifyFrom tables packet thread bytes start ledger).1
        (·.hit thread bytes) := by
  have counts : ∀ {table : Table} {ledger last : Ledger} {answer : Option EntryRef},
      table.classify ledger packet thread bytes = (answer, last) →
        last = ledger.updateAll answer.toList (·.hit thread bytes) := by
    intro table ledger last answer counted
    rw [Table.classify_eq] at counted
    obtain ⟨rfl, rfl⟩ := Prod.mk.inj counted
    cases table.find? packet <;> rfl
  fun_induction classifyFrom tables packet thread bytes start ledger with
  | case1 start ledger missing => rfl
  | case2 start ledger table listed last counted => exact counts counted
  | case3 start ledger table listed hit last counted ends => exact counts counted
  | case4 start ledger table listed hit last counted next goes later hits after
      counted' ih =>
      rw [counted', counts counted] at ih
      exact ih
  | case5 start ledger table listed hit last counted next goes back => exact counts counted

/-- What a packet of `bytes` bytes that hits some entries makes of a pipeline. -/
structure Counted (pipeline after : Pipeline) (hits : List EntryRef) (bytes : UInt64) :
    Prop where
  once : (hits.map (·.id)).Nodup
  counters : ∀ hit ∈ hits, (after.ledger.entry hit).counters =
    (pipeline.ledger.entry hit).counters + ⟨1, bytes⟩
  instructions : ∀ id, (after.ledger.state id).instructions =
    (pipeline.ledger.state id).instructions
  others : ∀ id ∉ hits.map (·.id), after.ledger.state id = pipeline.ledger.state id
  notices : after.ledger.notices = pipeline.ledger.notices
  /-- Every entry stays in its place, as the ledger is all that changes. -/
  rest : after = { pipeline with ledger := after.ledger }

/-- The tables have their entries to themselves. -/
theorem Arrayed.apart_of_ne {valid : TableId → InstructionSet → Prop}
    (arrayed : Arrayed valid tables ledger) (member : table ∈ tables) {other : Table}
    (otherMember : other ∈ tables) (different : other.id ≠ table.id) {ref otherRef : EntryRef}
    (installed : ref ∈ table.matcher.entries)
    (otherInstalled : otherRef ∈ other.matcher.entries) : ref.id ≠ otherRef.id := by
  obtain ⟨front, back, rfl⟩ := List.append_of_mem member
  have elsewhere : other ∈ front ++ back := by
    rw [List.mem_append, List.mem_cons] at otherMember
    rcases otherMember with before | rfl | behind
    · exact List.mem_append_left back before
    · exact absurd rfl different
    · exact List.mem_append_right front behind
  intro same
  exact arrayed.apart elsewhere otherInstalled
    (same ▸ List.mem_map_of_mem (f := (·.id)) installed)

/-- The ledger tells the entries that a packet hits apart. -/
theorem Way.tracks (way : pipeline.Way packet start stops)
    (orderly : pipeline.Orderly count fun _ _ => True) :
    pipeline.ledger.Tracks (stops.map (·.2)) := by
  have installed : ∀ {table : Table} {hit : EntryRef}, table ∈ pipeline.tables →
      table.find? packet = some hit → hit ∈ table.matcher.entries :=
    fun member found => (orderly.arrayed.bears _ member).formed.mem_of_find? found
  constructor
  · -- tables with different numbers have no entry in common
    rw [List.map_map]
    refine List.pairwise_map.mpr
      (way.increasing.imp_of_mem fun {stop behind} member behindMember later => ?_)
    obtain ⟨table, listed, own, found⟩ := exists_table_of_find? (way.found stop member)
    obtain ⟨other, otherListed, otherOwn, otherFound⟩ :=
      exists_table_of_find? (way.found behind behindMember)
    have different : other.id ≠ table.id := by
      rw [own, otherOwn]
      intro same
      rw [same] at later
      exact UInt8.lt_irrefl _ later
    exact orderly.arrayed.apart_of_ne listed otherListed different
      (installed listed found) (installed otherListed otherFound)
  · intro ref member
    obtain ⟨stop, visited, rfl⟩ := List.mem_map.mp member
    obtain ⟨table, listed, -, found⟩ := exists_table_of_find? (way.found stop visited)
    exact orderly.arrayed.tracks.known _
      (List.mem_flatMap.mpr ⟨table, listed, installed listed found⟩)

theorem classify_eq (pipeline : Pipeline) (packet : Packet) (thread : ThreadId)
    (bytes : UInt64) :
    pipeline.classify packet thread bytes =
      ((pipeline.classify packet thread bytes).1,
        { pipeline with
          ledger := pipeline.ledger.updateAll (pipeline.classify packet thread bytes).1
            (·.hit thread bytes) }) := by
  refine Prod.ext rfl ?_
  show Pipeline.mk _ _ _ _ = _
  rw [ledger_classifyFrom]
  rfl

/-- A packet is counted once on each entry that it hits. -/
theorem counted_updateAll {hits : List EntryRef} (tracks : pipeline.ledger.Tracks hits)
    (thread : ThreadId) (bytes : UInt64) :
    pipeline.Counted { pipeline with
      ledger := pipeline.ledger.updateAll hits (·.hit thread bytes) } hits bytes where
  once := tracks.apart
  counters hit member := by
    have changed := congrArg (fun state : EntryState => state.tally.counters)
      (Ledger.state_updateAll_of_mem tracks member (·.hit thread bytes))
    exact changed.trans (Tally.counters_hit ..)
  instructions id := by
    have keeps : ∀ state : EntryState,
        (state.hit thread bytes).instructions = state.instructions := fun _ => rfl
    exact Ledger.updateAll_keeps keeps pipeline.ledger hits id
  others id absent := Ledger.state_updateAll_of_not_mem absent pipeline.ledger _
  notices := Ledger.notices_updateAll ..
  rest := rfl

/-! ## Reachable pipelines -/

/-- Ask a table itself, past the checks of the pipeline. -/
def direct (pipeline : Pipeline) (id : TableId) (request : Table.Request) : Pipeline :=
  match pipeline.table? id with
  | none => pipeline
  | some table =>
      let stage := Table.Stage.after ⟨table, pipeline.ledger⟩ request
      pipeline.setTable stage.table stage.ledger

/--
A pipeline is built from a configuration, and then gets requests, or its tables get some
themselves.  In between, groups can come and go past the pipeline, and whoever holds on to
entries can change what is known of them.
-/
inductive Reached : Pipeline → Prop
  | built {config : PipelineConfig} {groups : GroupSet} {start : Pipeline}
      (built : ofConfig config groups = .ok start) : Reached start
  | request {pipeline : Pipeline} (reached : Reached pipeline) (request : Request) :
      Reached (pipeline.after request)
  | direct {pipeline : Pipeline} (reached : Reached pipeline) (id : TableId)
      (request : Table.Request) : Reached (pipeline.direct id request)
  | regrouped {pipeline : Pipeline} (reached : Reached pipeline) (groups : GroupSet) :
      Reached { pipeline with groups }
  | shared {pipeline : Pipeline} {last : Ledger} (reached : Reached pipeline)
      (grown : pipeline.ledger.states.size ≤ last.states.size) :
      Reached { pipeline with ledger := last }

/-- A row of well-formed tables with entries that are told apart bears what is trivial. -/
theorem arrayed_of_tracks (formed : ∀ table ∈ tables, table.matcher.WellFormed)
    (tracks : ledger.Tracks (tables.flatMap (·.matcher.entries))) :
    Arrayed (fun _ _ => True) tables ledger where
  bears table member := {
    formed := formed table member
    known := fun ref installed =>
      tracks.known ref (List.mem_flatMap.mpr ⟨table, member, installed⟩)
    valid := fun _ _ => trivial }
  tracks := tracks

/-- A table advances in its row, and the others bear what is trivial as before. -/
theorem Arrayed.advance {front back : List Table} {left : Table} {last : Ledger}
    {gone : List EntryRef} {joined : Option EntryRef}
    (arrayed : Arrayed (fun _ _ => True) (front ++ table :: back) ledger)
    (advance : table.Advance ledger left last gone joined) :
    Arrayed (fun _ _ => True) (front ++ left :: back) last := by
  refine arrayed_of_tracks (fun other member => ?_)
    ((turnover_flatMap_entries advance.turnover front back).tracks arrayed.tracks
      advance.grown advance.issued)
  rw [List.mem_append, List.mem_cons] at member
  rcases member with before | rfl | behind
  · exact (arrayed.bears other (by simp [before])).formed
  · exact advance.formed
  · exact (arrayed.bears other (by simp [behind])).formed

/-- A table that is asked itself leaves the others as they are. -/
theorem Orderly.direct (orderly : pipeline.Orderly count fun _ _ => True) (id : TableId)
    (request : Table.Request) :
    (pipeline.direct id request).Orderly count fun _ _ => True := by
  unfold Pipeline.direct
  cases listed : pipeline.table? id with
  | none => exact orderly
  | some table =>
      obtain rfl : table.id = id := by simpa using List.find?_some listed
      obtain ⟨front, back, row, placed⟩ :=
        exists_place orderly.distinct (by rw [Pipeline.table, listed])
      have arrayed := orderly.arrayed
      rw [row] at arrayed
      have own : Table.Stage.Orderly ⟨table, pipeline.ledger⟩ :=
        ⟨(arrayed.bears table (by simp)).formed, arrayed.tracks_one⟩
      obtain ⟨gone, advance, -⟩ := own.step request
      have tables := placed (Table.Stage.after ⟨table, pipeline.ledger⟩ request).table
        (Table.Stage.after ⟨table, pipeline.ledger⟩ request).ledger advance.id
      refine ⟨?_, orderly.few, ?_⟩
      · rw [tables, ← orderly.numbered, row, List.map_append, List.map_append, List.map_cons,
          List.map_cons, advance.id]
      · rw [tables]
        exact arrayed.advance advance

theorem Reached.orderly (reached : pipeline.Reached) :
    ∃ count, pipeline.Orderly count fun _ _ => True := by
  induction reached with
  | built built => exact ⟨_, orderly_ofConfig built _⟩
  | request reached request ih =>
      obtain ⟨count, orderly⟩ := ih
      exact ⟨count, orderly.after (fun _ _ _ => trivial) request⟩
  | direct reached id request ih =>
      obtain ⟨count, orderly⟩ := ih
      exact ⟨count, orderly.direct id request⟩
  | regrouped reached groups ih =>
      obtain ⟨count, orderly⟩ := ih
      exact ⟨count, orderly.numbered, orderly.few, orderly.arrayed⟩
  | shared reached grown ih =>
      obtain ⟨count, orderly⟩ := ih
      exact ⟨count, orderly.numbered, orderly.few, arrayed_of_tracks
        (fun table member => (orderly.arrayed.bears table member).formed)
        (orderly.arrayed.tracks.mono grown)⟩

/--
In every state of a pipeline, also one with entries that send packets back or nowhere, a
packet takes a way through tables with growing numbers, from the first table on, each of
them at most once.  It hits in each the entry that is found there, is counted once on
these, and changes nothing else.
-/
theorem Reached.classify_way (reached : pipeline.Reached) (packet : Packet)
    (thread : ThreadId) (bytes : UInt64) :
    (∀ id, pipeline.table? id = pipeline.tables[id.number.toNat]?) ∧
      ∃ stops : List (TableId × EntryRef),
        pipeline.Way packet ⟨0⟩ stops ∧
        (pipeline.classify packet thread bytes).1 = stops.map (·.2) ∧
        stops.length ≤ pipeline.tables.length ∧
        pipeline.Counted (pipeline.classify packet thread bytes).2 (stops.map (·.2))
          bytes := by
  obtain ⟨count, orderly⟩ := reached.orderly
  obtain ⟨stops, way, hits⟩ :=
    exists_way_classifyFrom packet thread bytes ⟨0⟩ fun _ => rfl
  have hits : (pipeline.classify packet thread bytes).1 = stops.map (·.2) := hits
  refine ⟨orderly.table?_eq, stops, way, hits, way.length_le, ?_⟩
  rw [classify_eq, hits]
  exact counted_updateAll (way.tracks orderly) thread bytes

/-- An entry for every packet, which sends it on. -/
def onward (next : UInt8) : Entry where
  instructions := { nextTable := some ⟨next⟩ }

/-- Three tables of which the first sends packets to the last, and the last sends them back. -/
def astray : Pipeline :=
  (relay.direct ⟨0⟩ (.add (fun _ => true) (onward 2) false false)).direct ⟨2⟩
    (.add (fun _ => true) (onward 1) false false)

/-- A packet passes over the second table, and is not sent back to it by the third. -/
theorem astray_classify_way :
    astray.Reached ∧
      (astray.classify Packet.empty 0 64).1.map (·.id) = [0, 1] ∧
      ∃ stops : List (TableId × EntryRef),
        astray.Way Packet.empty ⟨0⟩ stops ∧ stops.length = 2 ∧
        astray.Counted (astray.classify Packet.empty 0 64).2 (stops.map (·.2)) 64 := by
  have built : ofConfig { name := "p", tables := [.trie, .list, .list] } GroupSet.empty =
      .ok relay := rfl
  have reached : astray.Reached := ((Reached.built built).direct ⟨0⟩ _).direct ⟨2⟩ _
  have two : (astray.classify Packet.empty 0 64).1.map (·.id) = [0, 1] := by decide +kernel
  obtain ⟨-, stops, way, hits, -, counted⟩ := reached.classify_way Packet.empty 0 64
  have length := congrArg List.length two
  rw [hits, List.length_map, List.length_map] at length
  exact ⟨reached, two, stops, way, length, counted⟩

end PacketClassifier.Pipeline
