import PacketClassifier.Proofs.TableSteps

/-!
# Who is told of what along a run of a table

A run of a table is a list of requests, some of which are refused.  Its history is the list
of entries that left the table, each with the reason that the request gave, or with none
if a new entry took the place.  No entry is in the history twice, and none that is in it
is in the table.  The notices are the part of the history that is to be reported.
-/

namespace PacketClassifier.Table

variable {ref : EntryRef} {reason : RemovalReason}

/-! ## Runs -/

/-- A request to a table, with the groups that exist when it comes. -/
inductive Request where
  | add (exists? : GroupId → Bool) (entry : Entry) (checkOverlap reset : Bool)
  | modify (exists? : GroupId → Bool) (template : Entry) (strictness : Strictness)
      (reset : Bool)
  | remove (target : RemovalTarget) (reason : RemovalReason)
  | clear (reason : RemovalReason)
  | classify (packet : Packet) (thread : ThreadId) (bytes : UInt64)

/-- The reason for which a request takes entries out, if it is meant to. -/
def Request.reason? : Request → Option RemovalReason
  | .remove _ reason | .clear reason => some reason
  | .add .. | .modify .. | .classify .. => none

/-- A table between two requests, with its ledger. -/
structure Stage where
  table : Table
  ledger : Ledger

namespace Stage

variable {stage : Stage}

def entries (stage : Stage) : List EntryRef :=
  stage.table.matcher.entries

/-- What a request leads to; one that is refused leads nowhere. -/
def after (stage : Stage) : Request → Stage
  | .add exists? entry checkOverlap reset =>
      match stage.table.add stage.ledger exists? entry checkOverlap reset with
      | .error _ => stage
      | .ok (_, table, ledger) => ⟨table, ledger⟩
  | .modify exists? template strictness reset =>
      match stage.table.modify stage.ledger exists? template strictness reset with
      | .error _ => stage
      | .ok (_, ledger) => ⟨stage.table, ledger⟩
  | .remove target reason =>
      match stage.table.remove stage.ledger target reason with
      | .error _ => stage
      | .ok (_, table, ledger) => ⟨table, ledger⟩
  | .clear reason =>
      let (_, table, ledger) := stage.table.clear stage.ledger reason
      ⟨table, ledger⟩
  | .classify packet thread bytes =>
      ⟨stage.table, (stage.table.classify stage.ledger packet thread bytes).2⟩

/-- What requests lead to, one after the other. -/
def run (stage : Stage) (requests : List Request) : Stage :=
  requests.foldl after stage

/-- The identity that a request gives to the entry it brings in, if that is accepted. -/
def arrival? (stage : Stage) : Request → Option EntryRef
  | .add exists? entry checkOverlap reset =>
      match stage.table.add stage.ledger exists? entry checkOverlap reset with
      | .error _ => none
      | .ok _ => some (stage.ledger.register entry).1
  | .modify .. | .remove .. | .clear _ | .classify .. => none

/-- The entries that came into the table in a run. -/
def arrivals : Stage → List Request → List EntryRef
  | _, [] => []
  | stage, request :: rest =>
      (stage.arrival? request).toList ++ arrivals (stage.after request) rest

/-- The entries that a request takes out of the table, and why. -/
def departures (stage : Stage) (request : Request) :
    List (EntryRef × Option RemovalReason) :=
  (stage.entries.filter (· ∉ (stage.after request).entries)).map (·, request.reason?)

/-- The entries that left the table in a run, and why, the first to leave first. -/
def history : Stage → List Request → List (EntryRef × Option RemovalReason)
  | _, [] => []
  | stage, request :: rest =>
      stage.departures request ++ history (stage.after request) rest

/-- The entries that notices are about, each with the reason told. -/
def told (stage : Stage) : List (EntryRef × RemovalReason) :=
  stage.ledger.notices.map (fun notice => (notice.1, notice.2.reason))

/-- The table gives out an entry: it lists it, or finds it, or answers a query with it. -/
def GivesOut (stage : Stage) (ref : EntryRef) : Prop :=
  ref ∈ stage.entries ∨
    (∃ packet, stage.table.find? packet = some ref) ∨
    (∃ packet thread bytes,
      (stage.table.classify stage.ledger packet thread bytes).1 = some ref) ∨
    (∃ query, ref ∈ stage.table.matcher.selected stage.ledger query) ∨
    ∃ group, ref ∈ stage.table.matcher.usersOf stage.ledger group

/-- The matcher is well-formed, and the ledger tells its entries apart. -/
structure Orderly (stage : Stage) : Prop where
  formed : stage.table.matcher.WellFormed
  tracks : stage.ledger.Tracks stage.entries

/-! ## One request -/

/-- The part of a history that is reported. -/
def reported : EntryRef × Option RemovalReason → Option (EntryRef × RemovalReason)
  | (ref, some reason) =>
      if ref.rule.notifiesRemoval ∧ reason ≠ .unreported then some (ref, reason) else none
  | (_, none) => none

/-- What is told of entries that go away is what is to be reported of them. -/
theorem map_due (ledger : Ledger) (reason : RemovalReason) (gone : List EntryRef) :
    (ledger.due reason gone).map (fun notice => (notice.1, notice.2.reason)) =
      (gone.map (·, some reason)).filterMap reported := by
  unfold Ledger.due
  rw [List.map_filterMap, List.filterMap_map]
  apply List.filterMap_congr
  intro ref _
  by_cases due : ref.rule.notifiesRemoval ∧ reason ≠ .unreported
  · have notice : (ledger.entry ref).removalNotice? reason =
        some ⟨reason, ledger.entry ref⟩ := if_pos due
    simp [reported, notice, due]
  · have nothing : (ledger.entry ref).removalNotice? reason = none := if_neg due
    simp only [Function.comp, reported, nothing, if_neg due]
    rfl

/-- A request advances the table, and notices are recorded about those that it takes out. -/
theorem Orderly.step (orderly : stage.Orderly) (request : Request) :
    ∃ gone,
      stage.table.Advance stage.ledger (stage.after request).table
        (stage.after request).ledger gone (stage.arrival? request) ∧
      (stage.after request).ledger.notices = stage.ledger.notices ++
        request.reason?.elim [] (stage.ledger.due · gone) := by
  have formed := orderly.formed
  have tracks : stage.ledger.Tracks stage.table.matcher.entries := orderly.tracks
  cases request with
  | add exists? entry checkOverlap reset =>
      cases added : stage.table.add stage.ledger exists? entry checkOverlap reset with
      | error cause =>
          simp only [Stage.after, arrival?, added]
          exact ⟨[], .refl formed _, (List.append_nil _).symm⟩
      | ok result =>
          obtain ⟨outcome, table, ledger⟩ := result
          simp only [Stage.after, arrival?, added]
          rcases add_cases formed added with
            ⟨-, -, rfl, advance⟩ | ⟨old, -, -, -, rfl, advance⟩
          · exact ⟨[], advance, (List.append_nil _).symm⟩
          · refine ⟨[old], advance, ?_⟩
            cases reset <;> exact (List.append_nil _).symm
  | modify exists? template strictness reset =>
      cases modified : stage.table.modify stage.ledger exists? template strictness
          reset with
      | error cause =>
          simp only [Stage.after, arrival?, modified]
          exact ⟨[], .refl formed _, (List.append_nil _).symm⟩
      | ok result =>
          obtain ⟨count, ledger⟩ := result
          simp only [Stage.after, arrival?, modified]
          obtain ⟨-, -, -, rfl⟩ := modify_spec modified
          refine ⟨[], .updateAll formed _ List.filter_sublist _, ?_⟩
          rw [Ledger.notices_updateAll]
          exact (List.append_nil _).symm
  | remove target reason =>
      cases removed : stage.table.remove stage.ledger target reason with
      | error cause =>
          simp only [Stage.after, arrival?, removed]
          exact ⟨[], .refl formed _, (List.append_nil _).symm⟩
      | ok result =>
          obtain ⟨count, table, ledger⟩ := result
          simp only [Stage.after, arrival?, removed]
          obtain ⟨-, -, -, -, rfl, advance⟩ := remove_spec formed removed
          exact ⟨_, advance, Ledger.notices_dismissAll ..⟩
  | clear reason =>
      obtain ⟨-, dismissed, advance⟩ := clear_spec formed stage.ledger reason
      refine ⟨_, advance, ?_⟩
      exact (congrArg Ledger.notices dismissed).trans (Ledger.notices_dismissAll ..)
  | classify packet thread bytes =>
      simp only [Stage.after, arrival?, classify_eq]
      cases found : stage.table.find? packet with
      | none => exact ⟨[], .refl formed _, (List.append_nil _).symm⟩
      | some hit =>
          have installed := List.singleton_sublist.mpr (formed.mem_of_find? found)
          exact ⟨[], .updateAll formed _ installed _, (List.append_nil _).symm⟩

theorem Orderly.after (orderly : stage.Orderly) (request : Request) :
    (stage.after request).Orderly := by
  obtain ⟨gone, advance, -⟩ := orderly.step request
  exact ⟨advance.formed, advance.tracks orderly.tracks⟩

/-- A request tells of the entries that it takes out, as far as that is to be reported. -/
theorem Orderly.told_after (orderly : stage.Orderly) (request : Request) :
    (stage.after request).told =
      stage.told ++ (stage.departures request).filterMap reported := by
  obtain ⟨gone, advance, notices⟩ := orderly.step request
  have left : stage.entries.filter (· ∉ (stage.after request).entries) = gone :=
    advance.gone_eq orderly.tracks
  rw [told, notices, List.map_append, departures, left]
  congr 1
  cases request.reason? with
  | some reason => exact map_due stage.ledger reason gone
  | none =>
      symm
      rw [List.filterMap_map, Option.elim, List.map_nil, List.filterMap_eq_nil_iff]
      exact fun _ _ => rfl

/-! ## Runs -/

theorem Orderly.run (orderly : stage.Orderly) (requests : List Request) :
    (stage.run requests).Orderly := by
  induction requests generalizing stage with
  | nil => exact orderly
  | cons first rest ih => exact ih (orderly.after first)

theorem Orderly.told_run (orderly : stage.Orderly) (requests : List Request) :
    (stage.run requests).told =
      stage.told ++ (stage.history requests).filterMap reported := by
  induction requests generalizing stage with
  | nil => exact (List.append_nil _).symm
  | cons first rest ih =>
      refine (ih (orderly.after first)).trans ?_
      rw [orderly.told_after, history, List.filterMap_append, List.append_assoc]

/-- Those that leave stay apart from those that were there, also after they have left. -/
theorem Orderly.tracks_departures (orderly : stage.Orderly) {earlier : List EntryRef}
    (tracks : stage.ledger.Tracks (earlier ++ stage.entries)) (request : Request) :
    (stage.after request).ledger.Tracks
      (earlier ++ (stage.departures request).map (·.1) ++
        (stage.after request).entries) := by
  obtain ⟨gone, advance, -⟩ := orderly.step request
  have left : (stage.departures request).map (·.1) = gone := by
    rw [← advance.gone_eq orderly.tracks, departures, List.map_map]
    exact List.map_id' _
  obtain ⟨kept, parts, stayed⟩ := advance.turnover
  -- taken together, nobody leaves
  have turnover : Turnover (gone ++ kept) (gone ++ (stage.after request).entries) []
      (stage.arrival? request) := by
    refine ⟨gone ++ kept, List.Perm.refl _, (stayed.append_left gone).trans ?_⟩
    rw [← List.append_assoc, ← List.append_assoc]
    exact List.perm_append_comm.append_right kept
  have whole := turnover.frame earlier []
  rw [List.append_nil, List.append_nil] at whole
  rw [left, List.append_assoc]
  exact whole.tracks (tracks.perm (parts.append_left earlier)) advance.grown advance.issued

/-- Nobody leaves twice, or comes back. -/
theorem Orderly.tracks_history (orderly : stage.Orderly) {earlier : List EntryRef}
    (tracks : stage.ledger.Tracks (earlier ++ stage.entries)) (requests : List Request) :
    (stage.run requests).ledger.Tracks
      (earlier ++ (stage.history requests).map (·.1) ++
        (stage.run requests).entries) := by
  induction requests generalizing stage earlier with
  | nil =>
      rw [history, List.map_nil, List.append_nil]
      exact tracks
  | cons first rest ih =>
      have later := ih (orderly.after first) (orderly.tracks_departures tracks first)
      rw [history, List.map_append, ← List.append_assoc]
      exact later

/-- Whoever leaves was there at first or came in by an accepted request. -/
theorem Orderly.mem_history (orderly : stage.Orderly) {requests : List Request}
    {why : Option RemovalReason} (left : (ref, why) ∈ stage.history requests) :
    ref ∈ stage.entries ∨ ref ∈ stage.arrivals requests := by
  induction requests generalizing stage with
  | nil => exact absurd left List.not_mem_nil
  | cons first rest ih =>
      rw [arrivals, List.mem_append, Option.mem_toList]
      rcases List.mem_append.mp left with now | later
      · obtain ⟨other, listed, same⟩ := List.mem_map.mp now
        obtain rfl : other = ref := congrArg Prod.fst same
        exact Or.inl (List.mem_of_mem_filter listed)
      · rcases ih (orderly.after first) later with present | came
        · obtain ⟨gone, advance, -⟩ := orderly.step first
          rcases advance.turnover.mem_cases present with arrived | older
          · exact Or.inr (Or.inl arrived)
          · exact Or.inl older
        · exact Or.inr (Or.inr came)

/-! ## Notices -/

theorem mem_filterMap_reported {list : List (EntryRef × Option RemovalReason)} :
    (ref, reason) ∈ list.filterMap reported ↔
      ref.rule.notifiesRemoval = true ∧ reason ≠ .unreported ∧
        (ref, some reason) ∈ list := by
  rw [List.mem_filterMap]
  constructor
  · rintro ⟨⟨other, _ | why⟩, member, due⟩
    · exact absurd due (by simp [reported])
    · simp only [reported, Option.ite_none_right_eq_some, Option.some.injEq,
        Prod.mk.injEq] at due
      obtain ⟨⟨flagged, told⟩, rfl, rfl⟩ := due
      exact ⟨flagged, told, member⟩
  · rintro ⟨flagged, told, member⟩
    exact ⟨_, member, if_pos ⟨flagged, told⟩⟩

theorem map_fst_reported_sublist (list : List (EntryRef × Option RemovalReason)) :
    ((list.filterMap reported).map (·.1)).Sublist (list.map (·.1)) := by
  induction list with
  | nil => exact List.Sublist.refl _
  | cons first rest ih =>
      obtain ⟨ref, why⟩ := first
      rw [List.filterMap_cons]
      split
      · exact ih.cons ref
      · rename_i told due
        cases why with
        | none => cases due
        | some reason =>
            obtain ⟨-, rfl⟩ : _ ∧ (ref, reason) = told := by
              simpa [reported] using due
            exact ih.cons_cons ref

/-- What a table gives out is installed in it. -/
theorem Orderly.mem_of_givesOut (orderly : stage.Orderly) (givesOut : stage.GivesOut ref) :
    ref ∈ stage.entries := by
  rcases givesOut with
    listed | ⟨packet, found⟩ | ⟨packet, thread, bytes, hit⟩ | ⟨query, chosen⟩ | ⟨group, uses⟩
  · exact listed
  · exact orderly.formed.mem_of_find? found
  · rw [classify_eq] at hit
    exact orderly.formed.mem_of_find? hit
  · exact List.mem_of_mem_filter chosen
  · exact List.mem_of_mem_filter uses

/-- A table as it is made, before anything is asked of it. -/
def new (id : TableId) (kind : MatcherKind) : Stage where
  table := .ofMatcher id (.empty kind)
  ledger := {}

theorem orderly_new (id : TableId) (kind : MatcherKind) : (new id kind).Orderly where
  formed := Matcher.wellFormed_empty kind
  tracks := by cases kind <;> exact .nil _

/--
Along every run of a table that had told nothing, notices are about different entries.
They are about the entries with the flag that left for a reason that is reported, and
give that reason.  No notice is about an entry that gave way to a new one, or that was
never installed; and no entry that a notice is about is given out any more.
-/
theorem run_notices {start : Stage} (orderly : start.Orderly)
    (silent : start.ledger.notices = []) (requests : List Request) :
    ((start.run requests).ledger.notices.map (·.1.id)).Nodup ∧
      (∀ ref reason, (ref, reason) ∈ (start.run requests).told ↔
        ref.rule.notifiesRemoval = true ∧ reason ≠ .unreported ∧
          (ref, some reason) ∈ start.history requests) ∧
      (∀ ref, (ref, none) ∈ start.history requests →
        ∀ reason, (ref, reason) ∉ (start.run requests).told) ∧
      ∀ ref reason, (ref, reason) ∈ (start.run requests).told →
        (ref ∈ start.entries ∨ ref ∈ start.arrivals requests) ∧
          ¬ (start.run requests).GivesOut ref := by
  have told : (start.run requests).told = (start.history requests).filterMap reported := by
    rw [orderly.told_run, Stage.told, silent, List.map_nil, List.nil_append]
  have tracks : (start.run requests).ledger.Tracks
      ([] ++ (start.history requests).map (·.1) ++ (start.run requests).entries) :=
    orderly.tracks_history orderly.tracks requests
  rw [List.nil_append] at tracks
  have history := tracks.sublist (List.sublist_append_left _ _)
  refine ⟨?_, ?_, ?_, ?_⟩
  · have refs : (start.run requests).ledger.notices.map (·.1.id) =
        (((start.history requests).filterMap reported).map (·.1)).map (·.id) := by
      rw [← told, Stage.told, List.map_map, List.map_map]
      rfl
    rw [refs]
    exact (history.sublist (map_fst_reported_sublist _)).apart
  · intro ref reason
    rw [told, mem_filterMap_reported]
  · intro ref overwritten reason listed
    rw [told, mem_filterMap_reported] at listed
    have same := List.inj_on_of_nodup_map history.nodup overwritten listed.2.2 rfl
    exact absurd same (by simp)
  · intro ref reason listed
    rw [told, mem_filterMap_reported] at listed
    have left : ref ∈ (start.history requests).map (·.1) :=
      List.mem_map_of_mem (f := Prod.fst) listed.2.2
    refine ⟨orderly.mem_history listed.2.2, fun givesOut => ?_⟩
    have installed := (orderly.run requests).mem_of_givesOut givesOut
    exact (List.nodup_append'.mp tracks.nodup).2.2 left installed

/--
An entry that takes the place of another, keeps it since the third one would overlap it,
and is then taken out.
-/
def succession : List Request :=
  let flagged : Entry := { notifiesRemoval := true }
  [.add (fun _ => true) flagged false false,
    .add (fun _ => true) { flagged with cookie := 1 } false false,
    .add (fun _ => true) flagged true false,
    .remove (.selected {}) .delete]

theorem succession_notices :
    (new ⟨0⟩ .list).Orderly ∧ (new ⟨0⟩ .list).ledger.notices = [] ∧
      (new ⟨0⟩ .list).history succession =
        [(⟨0, { notifiesRemoval := true }⟩, none),
          (⟨1, { notifiesRemoval := true, cookie := 1 }⟩, some .delete)] ∧
      (⟨1, { notifiesRemoval := true, cookie := 1 }⟩, .delete) ∈
        ((new ⟨0⟩ .list).run succession).told ∧
      ∀ reason, (⟨0, { notifiesRemoval := true }⟩, reason) ∉
        ((new ⟨0⟩ .list).run succession).told := by
  have history : (new ⟨0⟩ .list).history succession =
      [(⟨0, { notifiesRemoval := true }⟩, none),
        (⟨1, { notifiesRemoval := true, cookie := 1 }⟩, some .delete)] := by decide
  obtain ⟨-, told, overwritten, -⟩ := run_notices (orderly_new ⟨0⟩ .list) rfl succession
  refine ⟨orderly_new ⟨0⟩ .list, rfl, history, ?_, ?_⟩
  · rw [told, history]
    exact ⟨rfl, by decide, List.mem_cons_of_mem _ List.mem_cons_self⟩
  · apply overwritten
    rw [history]
    exact List.mem_cons_self

end Stage

end PacketClassifier.Table
