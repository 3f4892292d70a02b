import PacketClassifier.Proofs.Pipeline.Order
import PacketClassifier.Proofs.Tally

/-!
# No packet is lost or counted twice

A packet counts once on every entry that it hits, and its bytes do.  What has been counted
stays with the entry, goes over to the one that takes its place, or goes away with an
entry that is removed.  So along a run that sets no counters back the installed entries
and the removed ones have together counted what the packets hit, modulo the size of a word.
-/

namespace PacketClassifier

/-! ## A new entry -/

/-- An entry that takes over the counters of another has counted what both have. -/
theorem Ledger.total_fold {ledger : Ledger} {old new : EntryRef}
    (known : new.id < ledger.states.size) (different : old.id ≠ new.id) :
    (ledger.update new (·.fold (ledger.entry old).counters)).total [new] =
      ledger.total [new] +
        (ledger.update new (·.fold (ledger.entry old).counters)).total [old] := by
  have tracks : ledger.Tracks [new] := (Ledger.Tracks.nil {}).cons (Nat.zero_le _) known
  have kept : (ledger.update new (·.fold (ledger.entry old).counters)).total [old] =
      ledger.total [old] := by
    refine total_congr fun ref member => ?_
    obtain rfl := List.mem_singleton.mp member
    rw [state_update_of_ne different]
  rw [total_update tracks List.mem_cons_self fun _ => Tally.counters_fold .., kept,
    total_cons ledger old, total_nil, add_zero]

/--
A new entry that has counted nothing takes over what the entry has counted whose place it
takes, or nothing.
-/
theorem Table.counts_of_add {table left : Table} {ledger last : Ledger}
    {exists? : GroupId → Bool} {template : Entry} {outcome : AddOutcome}
    {checkOverlap reset : Bool} (formed : table.matcher.WellFormed)
    (tracks : ledger.Tracks table.matcher.entries) (fresh : template.counters = {})
    (added : table.add ledger exists? template checkOverlap reset =
      .ok (outcome, left, last)) :
    ∃ gone new, table.Advance ledger left last gone (some new) ∧
      (∀ id < ledger.states.size, last.state id = ledger.state id) ∧
      last.total [new] = if reset then 0 else last.total gone := by
  have own : (table.enter ledger template).total [(ledger.register template).1] = 0 := by
    rw [Ledger.total_cons, Ledger.total_nil, add_zero]
    show ((table.enter ledger template).state ledger.states.size).tally.counters = 0
    rw [state_enter_self]
    exact fresh
  have older : ∀ id < ledger.states.size,
      (table.enter ledger template).state id = ledger.state id :=
    fun id known => state_enter_of_lt known table template
  rcases add_cases formed added with
    ⟨-, -, rfl, advance⟩ | ⟨old, installed, -, -, rfl, advance⟩
  · refine ⟨_, _, advance, older, ?_⟩
    rw [own, Ledger.total_nil, ite_self]
  · cases reset with
    | true => exact ⟨_, _, advance, older, own⟩
    | false =>
        have known := Nat.ne_of_lt (tracks.known old installed)
        refine ⟨_, _, advance, fun id known => ?_, ?_⟩
        · exact (Ledger.state_update_of_ne (Nat.ne_of_lt known) _ _).trans (older id known)
        · refine (Ledger.total_fold (by simp [Ledger.register]) known).trans ?_
          rw [own, zero_add]
          rfl

namespace Pipeline

variable {pipeline : Pipeline} {request : Request} {table left : Table}
  {ledger last : Ledger} {tables : List Table} {count : Nat}

/-! ## What is returned, and what goes away -/

/-- A request sets no counters: a new entry comes without, and others keep theirs. -/
def Request.KeepsCounters : Request → Prop
  | .add _ entry _ _ => entry.counters = {}
  | .modify _ _ _ reset => reset = false
  | .remove .. | .clear .. | .addGroup _ | .removeGroup _ | .flowStats .. | .aggregate ..
  | .classify .. => True

instance : DecidablePred Request.KeepsCounters
  | .add _ entry _ _ => inferInstanceAs (Decidable (entry.counters = {}))
  | .modify _ _ _ reset => inferInstanceAs (Decidable (reset = false))
  | .remove .. | .clear .. | .addGroup _ | .removeGroup _ | .flowStats .. | .aggregate ..
  | .classify .. => inferInstanceAs (Decidable True)

/-- An entry whose place is taken hands its counters over. -/
def Request.handsOver : Request → Bool
  | .add _ _ _ reset => !reset
  | .modify .. | .remove .. | .clear .. | .addGroup _ | .removeGroup _ | .flowStats ..
  | .aggregate .. | .classify .. => false

/-- The counters that go away with the entries that a request takes out of the tables. -/
def removed (pipeline : Pipeline) (request : Request) : List Counters :=
  if request.handsOver then []
  else
    (pipeline.installed.filter (· ∉ (pipeline.after request).installed)).map
      (fun ref => ((pipeline.after request).ledger.entry ref).counters)

/-- The entries that a request returns for a packet, each with the bytes of the packet. -/
def returned (pipeline : Pipeline) : Request → List (EntryRef × UInt64)
  | .classify packet thread bytes =>
      (pipeline.classify packet thread bytes).1.map (·, bytes)
  | .add .. | .modify .. | .remove .. | .clear .. | .addGroup _ | .removeGroup _
  | .flowStats .. | .aggregate .. => []

/-- The counters that go away along a run. -/
def allRemoved : Pipeline → List Request → List Counters
  | _, [] => []
  | pipeline, request :: rest =>
      pipeline.removed request ++ allRemoved (pipeline.after request) rest

/-- The entries that are returned for packets along a run. -/
def allReturned : Pipeline → List Request → List (EntryRef × UInt64)
  | _, [] => []
  | pipeline, request :: rest =>
      pipeline.returned request ++ allReturned (pipeline.after request) rest

/-- What the installed entries have counted. -/
def counters (pipeline : Pipeline) : Counters :=
  pipeline.ledger.total pipeline.installed

/-- What is to be counted for entries that are returned. -/
def due (hits : List (EntryRef × UInt64)) : Counters :=
  (hits.map (fun hit => ⟨1, hit.2⟩)).sum

/-- What is counted stays with installed entries or goes away with those taken out. -/
def Balances (pipeline : Pipeline) (request : Request) : Prop :=
  (pipeline.after request).counters + (pipeline.removed request).sum =
    pipeline.counters + due (pipeline.returned request)

/-! ## Entries that come and go -/

/--
Where no packet is counted, nothing is lost if the new entry takes over what has gone,
should that be handed over.
-/
theorem balances_of_turnover {gone : List EntryRef} {joined : Option EntryRef}
    (tracks : pipeline.ledger.Tracks pipeline.installed)
    (turnover : Turnover pipeline.installed (pipeline.after request).installed gone joined)
    (fresh : ∀ ref ∈ joined, pipeline.ledger.states.size ≤ ref.id)
    (same : ∀ ref ∈ pipeline.installed, ((pipeline.after request).ledger.state ref.id).tally =
      (pipeline.ledger.state ref.id).tally)
    (taken : (pipeline.after request).ledger.total joined.toList =
      if request.handsOver then (pipeline.after request).ledger.total gone else 0)
    (silent : pipeline.returned request = []) : pipeline.Balances request := by
  obtain ⟨rest, before, after⟩ := Ledger.total_turnover turnover same
  have left : (pipeline.after request).ledger.total
      (pipeline.installed.filter (· ∉ (pipeline.after request).installed)) =
        (pipeline.after request).ledger.total gone :=
    Ledger.total_perm _ (turnover.filter_not_mem_perm tracks fresh)
  rw [Balances, silent, due, List.map_nil, List.sum_nil, add_zero, counters, counters, before,
    after, taken, removed]
  cases request.handsOver with
  | true => simp
  | false =>
      rw [if_neg Bool.false_ne_true, if_neg Bool.false_ne_true, zero_add, add_comm, ← left]
      rfl

/-- A step that counts nothing and brings no entry. -/
def Quiet (table : Table) (ledger : Ledger) (left : Table) (last : Ledger) : Prop :=
  ∃ gone, table.Advance ledger left last gone none ∧
    ∀ id, (last.state id).tally = (ledger.state id).tally

theorem quiet_of_remove (formed : table.matcher.WellFormed) {target : RemovalTarget}
    {reason : RemovalReason}
    (removed : table.remove ledger target reason = .ok (count, left, last)) :
    Quiet table ledger left last := by
  obtain ⟨-, -, -, -, rfl, advance⟩ := Table.remove_spec formed removed
  exact ⟨_, advance, fun id => by rw [Ledger.state_dismissAll]⟩

theorem quiet_clear (formed : table.matcher.WellFormed) (ledger : Ledger)
    (reason : RemovalReason) :
    Quiet table ledger (table.clear ledger reason).2.1 (table.clear ledger reason).2.2 := by
  obtain ⟨-, dismissed, advance⟩ := Table.clear_spec formed ledger reason
  exact ⟨_, advance, fun id => by rw [dismissed, Ledger.state_dismissAll]⟩

theorem quiet_of_modify (formed : table.matcher.WellFormed) {exists? : GroupId → Bool}
    {template : Entry} {strictness : Strictness}
    (modified : table.modify ledger exists? template strictness false = .ok (count, last)) :
    Quiet table ledger table last := by
  obtain ⟨-, -, -, rfl⟩ := Table.modify_spec modified
  have keeps : ∀ state : EntryState,
      (state.replaceInstructions template.instructions false).tally = state.tally :=
    fun _ => rfl
  exact ⟨[], .updateAll formed ledger List.filter_sublist _,
    Ledger.updateAll_keeps keeps ledger _⟩

/-- A request of quiet steps only takes entries out. -/
theorem Orderly.balances_of_quiet (orderly : pipeline.Orderly count fun _ _ => True)
    (quiet : ∀ table ledger left last, pipeline.Step request table ledger left last →
      table.matcher.WellFormed → Quiet table ledger left last)
    (keeps : request.handsOver = false) (silent : pipeline.returned request = []) :
    pipeline.Balances request := by
  -- nobody joins on the way, so those that left before and those that leave now add up
  obtain ⟨-, gone, turnover, same⟩ := after_induction orderly.distinct request
    (motive := fun tables ledger => Arrayed (fun _ _ => True) tables ledger ∧
      ∃ gone, Turnover pipeline.installed (tables.flatMap (·.matcher.entries)) gone none ∧
        ∀ id, (ledger.state id).tally = (pipeline.ledger.state id).tally)
    (by
      rintro front table back ledger left last step ⟨arrayed, earlier, turnover, same⟩
      have formed := (arrayed.bears table (by simp)).formed
      obtain ⟨gone, advance, kept⟩ := quiet table ledger left last step formed
      refine ⟨arrayed.step (fun _ _ _ => trivial) step, earlier ++ gone, ?_, ?_⟩
      · exact turnover.trans_leave (turnover_flatMap_entries advance.turnover front back)
      · exact fun id => (kept id).trans (same id))
    ⟨orderly.arrayed, [], .refl _, fun _ => rfl⟩
  refine balances_of_turnover orderly.arrayed.tracks turnover (by simp)
    (fun ref _ => same ref.id) ?_ silent
  rw [keeps]
  rfl

/-- A new entry that has counted nothing takes over what the old one has, or nothing. -/
theorem Orderly.balances_add (orderly : pipeline.Orderly count fun _ _ => True)
    (id : TableId) {entry : Entry} (checkOverlap reset : Bool)
    (fresh : entry.counters = {}) :
    pipeline.Balances (.add id entry checkOverlap reset) := by
  have arrayed := orderly.arrayed
  have tracks : pipeline.ledger.Tracks pipeline.installed := arrayed.tracks
  rcases after_add_cases orderly.distinct id entry checkOverlap reset with
    same | ⟨front, table, back, left, last, row, step, tables, ledger⟩
  · have turnover : Turnover pipeline.installed
        (pipeline.after (.add id entry checkOverlap reset)).installed [] none := by
      rw [same]
      exact .refl _
    exact balances_of_turnover tracks turnover (by simp) (by simp [same]) (by simp) rfl
  · cases step with
    | add checked added =>
        rw [row] at arrayed
        obtain ⟨gone, new, advance, older, taken⟩ := Table.counts_of_add
          (arrayed.bears table (by simp)).formed arrayed.tracks_one fresh added
        have turnover : Turnover pipeline.installed
            (pipeline.after (.add table.id entry checkOverlap reset)).installed gone
            (some new) := by
          rw [installed, installed, row, tables]
          exact turnover_flatMap_entries advance.turnover front back
        refine balances_of_turnover tracks turnover
          (fun ref new => (advance.issued ref new).1) (fun ref member => ?_) ?_ rfl
        · rw [ledger, older ref.id (tracks.known ref member)]
        · rw [ledger]
          cases reset <;> exact taken

/-! ## Packets -/

/-- A packet counts on the entry that it hits, if it hits one of a table in the row. -/
theorem total_classify (formed : ∀ table ∈ tables, table.matcher.WellFormed)
    (tracks : ledger.Tracks (tables.flatMap (·.matcher.entries))) (member : table ∈ tables)
    {packet : Packet} {thread : ThreadId} {bytes : UInt64} {answer : Option EntryRef}
    (counted : table.classify ledger packet thread bytes = (answer, last)) :
    last.total (tables.flatMap (·.matcher.entries)) =
        ledger.total (tables.flatMap (·.matcher.entries)) +
          due (answer.toList.map (·, bytes)) ∧
      last.Tracks (tables.flatMap (·.matcher.entries)) := by
  rw [Table.classify_eq] at counted
  obtain ⟨rfl, rfl⟩ := Prod.mk.inj counted
  cases found : table.find? packet with
  | none => exact ⟨(add_zero _).symm, tracks⟩
  | some hit =>
      have installed : hit ∈ tables.flatMap (·.matcher.entries) :=
        List.mem_flatMap.mpr ⟨table, member, (formed table member).mem_of_find? found⟩
      refine ⟨?_, tracks.mono (Nat.le_of_eq (Ledger.size_update ..).symm)⟩
      refine (Ledger.total_update tracks installed fun _ => Tally.counters_hit ..).trans ?_
      simp [due]

/-- A packet counts once on every entry that it hits on its way. -/
theorem total_classifyFrom (formed : ∀ table ∈ tables, table.matcher.WellFormed)
    (tracks : ledger.Tracks (tables.flatMap (·.matcher.entries))) (packet : Packet)
    (thread : ThreadId) (bytes : UInt64) (current : TableId) :
    (classifyFrom tables packet thread bytes current ledger).2.total
        (tables.flatMap (·.matcher.entries)) =
      ledger.total (tables.flatMap (·.matcher.entries)) +
        due ((classifyFrom tables packet thread bytes current ledger).1.map (·, bytes)) := by
  fun_induction classifyFrom tables packet thread bytes current ledger with
  | case1 current ledger missing => exact (add_zero _).symm
  | case2 current ledger table listed last missed =>
      exact (total_classify formed tracks (List.mem_of_find?_eq_some listed) missed).1
  | case3 current ledger table listed hit last counted ends =>
      exact (total_classify formed tracks (List.mem_of_find?_eq_some listed) counted).1
  | case4 current ledger table listed hit last counted next goes later hits after
      counted' ih =>
      obtain ⟨first, tracks⟩ :=
        total_classify formed tracks (List.mem_of_find?_eq_some listed) counted
      have others := ih tracks
      rw [counted'] at others
      rw [others, first, add_assoc]
      simp [due]
  | case5 current ledger table listed hit last counted next goes back =>
      exact (total_classify formed tracks (List.mem_of_find?_eq_some listed) counted).1

/-! ## Requests and runs -/

theorem Orderly.balances (orderly : pipeline.Orderly count fun _ _ => True)
    (keeps : request.KeepsCounters) : pipeline.Balances request := by
  cases request with
  | add id entry checkOverlap reset => exact orderly.balances_add id checkOverlap reset keeps
  | modify id template strictness reset =>
      obtain rfl : reset = false := keeps
      refine orderly.balances_of_quiet (fun table ledger left last step formed => ?_) rfl rfl
      cases step with
      | modify _ modified => exact quiet_of_modify formed modified
  | remove id query =>
      refine orderly.balances_of_quiet (fun table ledger left last step formed => ?_) rfl rfl
      cases step with
      | remove removed => exact quiet_of_remove formed removed
  | clear id reason =>
      refine orderly.balances_of_quiet (fun table ledger left last step formed => ?_) rfl rfl
      cases step with
      | clear => exact quiet_clear formed ledger reason
  | removeGroup group =>
      refine orderly.balances_of_quiet (fun table ledger left last step formed => ?_) rfl rfl
      cases step with
      | removeGroup removed => exact quiet_of_remove formed removed
  | addGroup group => exact orderly.balances_of_quiet (by rintro _ _ _ _ ⟨⟩) rfl rfl
  | flowStats id query => exact orderly.balances_of_quiet (by rintro _ _ _ _ ⟨⟩) rfl rfl
  | aggregate id query => exact orderly.balances_of_quiet (by rintro _ _ _ _ ⟨⟩) rfl rfl
  | classify packet thread bytes =>
      have nobody : pipeline.removed (.classify packet thread bytes) = [] := by
        refine List.map_eq_nil_iff.mpr (List.filter_eq_nil_iff.mpr fun ref member => ?_)
        simpa using (show ref ∈ (pipeline.after (.classify packet thread bytes)).installed
          from member)
      rw [Balances, nobody, List.sum_nil, add_zero]
      exact total_classifyFrom
        (fun table member => (orderly.arrayed.bears table member).formed)
        orderly.arrayed.tracks packet thread bytes ⟨0⟩

theorem due_append (hits others : List (EntryRef × UInt64)) :
    due (hits ++ others) = due hits + due others := by
  simp [due]

/-- To add up ones is to count, as words do. -/
theorem sum_map_one (hits : List (EntryRef × UInt64)) :
    (hits.map (fun _ => (1 : UInt64))).sum = UInt64.ofNat hits.length := by
  induction hits with
  | nil => rfl
  | cons first rest ih =>
      rw [List.map_cons, List.sum_cons, ih, List.length_cons, Nat.add_comm, UInt64.ofNat_add]
      rfl

/-- Along a run that sets no counters, what is counted is not lost. -/
theorem Orderly.balances_run (orderly : pipeline.Orderly count fun _ _ => True)
    {requests : List Request} (keeps : ∀ request ∈ requests, request.KeepsCounters) :
    (pipeline.run requests).counters + (pipeline.allRemoved requests).sum =
      pipeline.counters + due (pipeline.allReturned requests) := by
  induction requests generalizing pipeline with
  | nil => rfl
  | cons first rest ih =>
      have later := ih (orderly.after (fun _ _ _ => trivial) first)
        fun request member => keeps request (List.mem_cons_of_mem first member)
      calc (pipeline.run (first :: rest)).counters +
            (pipeline.allRemoved (first :: rest)).sum
          = (((pipeline.after first).run rest).counters +
              ((pipeline.after first).allRemoved rest).sum) +
              (pipeline.removed first).sum := by
            rw [allRemoved, List.sum_append, add_assoc,
              add_comm ((pipeline.after first).allRemoved rest).sum]
            rfl
        _ = ((pipeline.after first).counters + (pipeline.removed first).sum) +
              due ((pipeline.after first).allReturned rest) := by
            rw [later, add_right_comm]
        _ = pipeline.counters + due (pipeline.allReturned (first :: rest)) := by
            rw [orderly.balances (keeps first List.mem_cons_self), allReturned, due_append,
              add_assoc]

/--
Along every run that sets no counters, of a pipeline that a configuration describes, the
installed entries have counted as many packets, together with the removed ones when they
went, as entries were returned, and the bytes of the packets for each of them; all this
modulo the size of a word.  An entry that hands its counters over is not among the removed.
-/
theorem run_counts {config : PipelineConfig} {groups : GroupSet} {start : Pipeline}
    (built : ofConfig config groups = .ok start) (requests : List Request)
    (keeps : ∀ request ∈ requests, request.KeepsCounters) :
    ((start.run requests).installed.map
        (fun ref => ((start.run requests).ledger.entry ref).counters.packets)).sum +
          ((start.allRemoved requests).map (·.packets)).sum =
        UInt64.ofNat (start.allReturned requests).length ∧
      ((start.run requests).installed.map
        (fun ref => ((start.run requests).ledger.entry ref).counters.bytes)).sum +
          ((start.allRemoved requests).map (·.bytes)).sum =
        ((start.allReturned requests).map (·.2)).sum := by
  have orderly := orderly_ofConfig built fun _ _ => True
  have balance := orderly.balances_run keeps
  have nothing : start.counters = 0 := by
    rw [counters, installed_of_ofConfig built]
    rfl
  rw [nothing, zero_add] at balance
  constructor
  · have packets := congrArg Counters.packets balance
    rw [Counters.packets_add, counters, Ledger.total, due, Counters.packets_sum,
      Counters.packets_sum, Counters.packets_sum, List.map_map, List.map_map] at packets
    refine packets.trans ?_
    exact sum_map_one _
  · have bytes := congrArg Counters.bytes balance
    rw [Counters.bytes_add, counters, Ledger.total, due, Counters.bytes_sum,
      Counters.bytes_sum, Counters.bytes_sum, List.map_map, List.map_map] at bytes
    exact bytes

/-- Two tables without entries. -/
def ferry : Pipeline where
  name := "p"
  tables := emptyTables [.trie, .list]

/--
Packets between requests: entries give way to others, which take over their counters or do
not, an entry gets other instructions, and one is removed with its group.  The request to
modify the entries of all tables is refused.
-/
def ferryRequests : List Request :=
  let onward : Entry := { instructions := { nextTable := some ⟨1⟩ } }
  let user : Entry := { instructions := { applied := some [.group ⟨7⟩] } }
  [.addGroup ⟨7⟩, .add ⟨0⟩ onward false false, .add ⟨1⟩ {} false false,
    .classify Packet.empty 0 64, .add ⟨0⟩ onward false false, .classify Packet.empty 1 100,
    .modify ⟨1⟩ user .nonStrict false, .modify .all {} .nonStrict false,
    .add ⟨1⟩ user false true, .classify Packet.empty 0 1500, .removeGroup ⟨7⟩]

theorem ferry_run_counts :
    ofConfig { name := "p", tables := [.trie, .list] } GroupSet.empty = .ok ferry ∧
      (∀ request ∈ ferryRequests, request.KeepsCounters) ∧
      ferry.allRemoved ferryRequests = [⟨2, 164⟩, ⟨1, 1500⟩] ∧
      (ferry.allReturned ferryRequests).length = 6 ∧
      ((ferry.run ferryRequests).installed.map
          (fun ref => ((ferry.run ferryRequests).ledger.entry ref).counters.packets)).sum +
            ((ferry.allRemoved ferryRequests).map (·.packets)).sum =
          UInt64.ofNat (ferry.allReturned ferryRequests).length ∧
        ((ferry.run ferryRequests).installed.map
          (fun ref => ((ferry.run ferryRequests).ledger.entry ref).counters.bytes)).sum +
            ((ferry.allRemoved ferryRequests).map (·.bytes)).sum =
          ((ferry.allReturned ferryRequests).map (·.2)).sum := by
  have built : ofConfig { name := "p", tables := [.trie, .list] } GroupSet.empty =
      .ok ferry := rfl
  have keeps : ∀ request ∈ ferryRequests, request.KeepsCounters := by decide
  exact ⟨built, keeps, by decide +kernel, by decide +kernel,
    run_counts built ferryRequests keeps⟩

end Pipeline

end PacketClassifier
