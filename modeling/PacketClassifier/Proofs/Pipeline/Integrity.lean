import PacketClassifier.Proofs.Pipeline.Groups
import PacketClassifier.Proofs.Pipeline.Sweeps

/-!
# Groups of installed entries

Whatever requests a pipeline is sent, every group that an installed entry sends packets
to exists.  An entry is given instructions only after their groups were looked up, and a
group that goes takes its users with it.
-/

namespace PacketClassifier.Pipeline

variable {pipeline : Pipeline} {group : GroupId} {ledger : Ledger}
  {valid : InstructionSet → Prop}

/-- The groups that the instructions send packets to exist. -/
def Provides (pipeline : Pipeline) (instructions : InstructionSet) : Prop :=
  ∀ group, instructions.HasGroup group → pipeline.hasGroup group = true

/-- The matchers are well-formed, and the groups of what is installed exist. -/
def Sound (pipeline : Pipeline) : Prop :=
  ∀ table ∈ pipeline.tables, table.Bears pipeline.Provides pipeline.ledger

/-! ## Requests to one table -/

theorem mem_of_table_eq_ok {id : TableId} {table : Table}
    (found : pipeline.table id = .ok table) : table ∈ pipeline.tables := by
  unfold Pipeline.table at found
  split at found
  · rename_i listed
    obtain rfl := Except.ok.inj found
    exact List.mem_of_find?_eq_some listed
  · exact absurd found (by simp)

/-- A table takes its place among tables that see its ledger. -/
theorem Sound.setTable (sound : pipeline.Sound) {table : Table}
    (bears : table.Bears pipeline.Provides ledger)
    (turns : pipeline.ledger.Turns pipeline.Provides ledger) :
    (pipeline.setTable table ledger).Sound := by
  intro placed member
  obtain ⟨other, listed, rfl⟩ := List.mem_map.mp member
  show Table.Bears pipeline.Provides ledger _
  split
  · exact bears
  · exact (sound other listed).turn turns

theorem Sound.install (sound : pipeline.Sound) {table : Table}
    (member : table ∈ pipeline.tables) (entry : Entry) (checkOverlap reset : Bool) :
    (pipeline.install table entry checkOverlap reset).2.Sound := by
  unfold Pipeline.install
  split
  · exact sound
  · rename_i added
    obtain ⟨bears, turns⟩ := (sound table member).add
      InstructionSet.checkGroups_eq_ok_iff.mp added
    exact sound.setTable bears turns

theorem Sound.add (sound : pipeline.Sound) (id : TableId) (entry : Entry)
    (checkOverlap reset : Bool) :
    (pipeline.add id entry checkOverlap reset).2.Sound := by
  unfold Pipeline.add
  split
  · exact sound
  · exact sound
  · rename_i found
    exact sound.install (mem_of_table_eq_ok found) entry checkOverlap reset

theorem Sound.clear (sound : pipeline.Sound) (id : TableId)
    (reason : RemovalReason) : (pipeline.clear id reason).2.Sound := by
  unfold Pipeline.clear
  split
  · exact sound
  · rename_i table found
    obtain ⟨bears, turns⟩ :=
      (sound table (mem_of_table_eq_ok found)).clear reason
    exact sound.setTable bears turns

/-! ## Requests to several tables -/

/-- What each table keeps under a request, all of them keep, up to an error. -/
theorem onTables_bears {chosen : Table → Bool}
    {request : Table → Ledger → Except RequestError (Nat × Table × Ledger)}
    (keeps : ∀ table ledger count after last, table.Bears valid ledger →
      request table ledger = .ok (count, after, last) →
        after.Bears valid last ∧ ledger.Turns valid last)
    {tables left : List Table} {last : Ledger} {result : Except RequestError Nat}
    (bears : ∀ table ∈ tables, table.Bears valid ledger)
    (swept : onTables chosen request tables ledger = (result, left, last)) :
    (∀ table ∈ left, table.Bears valid last) ∧ ledger.Turns valid last := by
  have row : left = (onTables chosen request tables ledger).2.1 ∧
      last = (onTables chosen request tables ledger).2.2 := by
    rw [swept]
    exact ⟨rfl, rfl⟩
  obtain ⟨rfl, rfl⟩ := row
  refine onTables_induction
    (motive := fun tables last =>
      (∀ table ∈ tables, table.Bears valid last) ∧ ledger.Turns valid last)
    ?_ [] ⟨bears, .refl ledger⟩
  rintro front table back between count after last - - carried ⟨bears, earlier⟩
  obtain ⟨own, turns⟩ := keeps table between count after last (bears table (by simp)) carried
  refine ⟨fun other member => ?_, earlier.trans turns⟩
  rcases List.mem_append.mp member with before | behind
  · exact (bears other (List.mem_append_left _ before)).turn turns
  · rcases List.mem_cons.mp behind with rfl | behind
    · exact own
    · exact (bears other (by simp [behind])).turn turns

theorem Sound.modify (sound : pipeline.Sound) (id : TableId) (template : Entry)
    (strictness : Strictness) (reset : Bool) :
    (pipeline.modify id template strictness reset).2.Sound := by
  unfold Pipeline.modify
  split
  · exact sound
  · refine (onTables_bears ?_ sound rfl).1
    intro table ledger count after last bears carried
    obtain ⟨outcome, modified, carried⟩ := exists_of_bind_eq_ok carried
    obtain ⟨-, rfl, rfl⟩ : _ ∧ table = after ∧ outcome.2 = last := by
      simpa only [Prod.mk.injEq] using Except.ok.inj carried
    have turns : ledger.Turns pipeline.Provides outcome.2 :=
      Table.Bears.modify InstructionSet.checkGroups_eq_ok_iff.mp modified
    exact ⟨bears.turn turns, turns⟩

theorem Sound.remove (sound : pipeline.Sound) (id : TableId) (query : Query) :
    (pipeline.remove id query).2.Sound := by
  unfold Pipeline.remove
  split
  · exact sound
  · exact (onTables_bears
      (fun _ _ _ _ _ bears removed => bears.remove removed) sound rfl).1

/-! ## Requests about groups -/

theorem Sound.addGroup (sound : pipeline.Sound) (group : GroupId) :
    (pipeline.addGroup group).2.Sound := by
  unfold Pipeline.addGroup
  split
  · exact sound
  · intro table member
    refine (sound table member).mono (fun instructions provides other uses => ?_)
    have present := provides other uses
    simp only [hasGroup] at present ⊢
    rw [GroupSet.contains_insert, present, Bool.or_true]

/-- What a removal of a group leaves in the tables does not use the group. -/
theorem unused_of_contents (free : pipeline.holder? group = none)
    {left : List Table}
    (contents : left.map Table.contents = pipeline.tables.map (fun table =>
      if table.matcher.supportsRemoval then
        table.without pipeline.ledger (usersQuery group)
      else
        table.contents))
    {table : Table} (member : table ∈ left) :
    ∀ ref ∈ table.matcher.entries, ¬ pipeline.Uses group ref := by
  have listed : table.contents ∈ left.map Table.contents :=
    List.mem_map_of_mem member
  rw [contents, List.mem_map] at listed
  obtain ⟨before, present, same⟩ := listed
  intro ref installed uses
  split at same
  · rw [without_usersQuery] at same
    have entries := congrArg Prod.snd same
    have kept : ref ∈ table.contents.2 := installed
    rw [← entries, List.mem_filter] at kept
    exact of_decide_eq_true kept.2 (Or.inr uses)
  · rename_i unable
    have entries : before.matcher.entries = table.matcher.entries :=
      congrArg Prod.snd same
    exact unused_of_holder?_eq_none free present unable ref (entries ▸ installed)
      uses

theorem Sound.removeGroup (sound : pipeline.Sound) (group : GroupId) :
    (pipeline.removeGroup group).2.Sound := by
  unfold Pipeline.removeGroup
  split
  · exact sound
  · split
    · exact sound
    · rename_i free
      have able : ∀ table ∈ pipeline.tables,
          (fun table : Table => table.matcher.supportsRemoval) table = true →
            table.matcher.supportsRemoval = true := fun _ _ able => able
      obtain ⟨left, last, swept, contents, agrees⟩ :=
        onTables_remove able pipeline.ledger (usersQuery group) .groupDelete
      have kept := (onTables_bears
        (fun _ _ _ _ _ bears removed => bears.remove removed) sound swept).1
      simp only [onEach, swept]
      intro table member
      refine ⟨(kept table member).formed, (kept table member).known, ?_⟩
      intro ref installed other uses
      have present := (kept table member).valid ref installed other uses
      -- a group that is used still was used before, as no instructions changed
      have unused := unused_of_contents free contents member ref installed
      have different : other ≠ group := by
        rintro rfl
        refine unused ?_
        rw [Uses, ← agrees ref.id]
        exact uses
      simp only [hasGroup] at present ⊢
      rw [GroupSet.contains_erase, present, Bool.and_true]
      exact decide_eq_true different

/-! ## Packets -/

theorem turns_classifyFrom (tables : List Table) (packet : Packet)
    (thread : ThreadId) (bytes : UInt64) (current : TableId) (ledger : Ledger) :
    ledger.Turns valid
      (classifyFrom tables packet thread bytes current ledger).2 := by
  refine classifyFrom_induction (motive := fun last => ledger.Turns valid last)
    (fun table _ hit between _ earlier => ?_) current (.refl ledger)
  exact earlier.trans (between.turns_hit hit thread bytes)

/-! ## Runs -/

/-- A request to a pipeline. -/
inductive Request where
  | add (table : TableId) (entry : Entry) (checkOverlap reset : Bool)
  | modify (table : TableId) (template : Entry) (strictness : Strictness)
      (reset : Bool)
  | remove (table : TableId) (query : Query)
  | clear (table : TableId) (reason : RemovalReason)
  | addGroup (group : GroupId)
  | removeGroup (group : GroupId)
  | flowStats (table : TableId) (query : Query)
  | aggregate (table : TableId) (query : Query)
  | classify (packet : Packet) (thread : ThreadId) (bytes : UInt64)

/-- The pipeline after a request, which may be refused or refused half-way. -/
def after (pipeline : Pipeline) : Request → Pipeline
  | .add table entry checkOverlap reset =>
      (pipeline.add table entry checkOverlap reset).2
  | .modify table template strictness reset =>
      (pipeline.modify table template strictness reset).2
  | .remove table query => (pipeline.remove table query).2
  | .clear table reason => (pipeline.clear table reason).2
  | .addGroup group => (pipeline.addGroup group).2
  | .removeGroup group => (pipeline.removeGroup group).2
  | .flowStats _ _ | .aggregate _ _ => pipeline
  | .classify packet thread bytes => (pipeline.classify packet thread bytes).2

/-- The pipeline after requests, one after the other. -/
def run (pipeline : Pipeline) (requests : List Request) : Pipeline :=
  requests.foldl after pipeline

theorem Sound.after (sound : pipeline.Sound) (request : Request) :
    (pipeline.after request).Sound := by
  cases request with
  | add table entry checkOverlap reset => exact sound.add table entry checkOverlap reset
  | modify table template strictness reset => exact sound.modify table template strictness reset
  | remove table query => exact sound.remove table query
  | clear table reason => exact sound.clear table reason
  | addGroup group => exact sound.addGroup group
  | removeGroup group => exact sound.removeGroup group
  | flowStats table query => exact sound
  | aggregate table query => exact sound
  | classify packet thread bytes =>
      intro table member
      exact (sound table member).turn (turns_classifyFrom ..)

theorem Sound.run (sound : pipeline.Sound) (requests : List Request) :
    (pipeline.run requests).Sound := by
  induction requests generalizing pipeline with
  | nil => exact sound
  | cons first rest ih => exact ih (sound.after first)

/-- A pipeline starts with well-formed tables without entries. -/
theorem empty_of_ofConfig {config : PipelineConfig} {groups : GroupSet} {start : Pipeline}
    (built : ofConfig config groups = .ok start) :
    ∀ table ∈ start.tables, table.matcher.WellFormed ∧ table.matcher.entries = [] := by
  obtain ⟨-, -, built⟩ := exists_of_bind_eq_ok built
  obtain rfl := Except.ok.inj built
  intro table member
  obtain ⟨⟨kind, place⟩, -, rfl⟩ := List.mem_map.mp member
  exact ⟨Matcher.wellFormed_empty kind, by cases kind <;> rfl⟩

theorem sound_ofConfig {config : PipelineConfig} {groups : GroupSet}
    {start : Pipeline} (built : ofConfig config groups = .ok start) :
    start.Sound := by
  intro table member
  obtain ⟨formed, none⟩ := empty_of_ofConfig built table member
  exact ⟨formed, by simp [none], by simp [none]⟩

/--
Along every run of a pipeline that a configuration describes, whatever groups there are
at first, each group that an installed entry sends packets to exists.
-/
theorem run_provides {config : PipelineConfig} {groups : GroupSet}
    {start : Pipeline} (built : ofConfig config groups = .ok start)
    (requests : List Request) :
    ∀ table ∈ (start.run requests).tables, ∀ ref ∈ table.matcher.entries,
      ∀ group, (start.run requests).Uses group ref →
        (start.run requests).hasGroup group = true := by
  intro table member ref installed
  exact (((sound_ofConfig built).run requests) table member).valid ref installed

/-- A table of either kind, and two groups. -/
def mixed : Pipeline where
  name := "p"
  tables := emptyTables [.trie, .list]
  groups := ⟨[⟨7⟩, ⟨9⟩]⟩

/--
Requests that leave an entry in either table, with two groups that they use.  Group 7
is not removed, since the trie holds an entry that uses it.
-/
def mixedRequests : List Request :=
  let user : Entry := { instructions := { applied := some [.group ⟨7⟩] } }
  let other : Entry := { instructions := { written := some [.group ⟨8⟩] } }
  [.addGroup ⟨8⟩, .add ⟨0⟩ user false false, .add ⟨1⟩ user false false,
    .modify ⟨1⟩ other .nonStrict false, .removeGroup ⟨7⟩, .removeGroup ⟨9⟩]

theorem mixed_run_provides :
    ofConfig { name := "p", tables := [.trie, .list] } ⟨[⟨7⟩, ⟨9⟩]⟩ = .ok mixed ∧
      (mixed.run mixedRequests).groups = ⟨[⟨7⟩, ⟨8⟩]⟩ ∧
      (mixed.run mixedRequests).tables.map (·.matcher.entries.length) = [1, 1] ∧
      ∀ table ∈ (mixed.run mixedRequests).tables, ∀ ref ∈ table.matcher.entries,
        ∀ group, (mixed.run mixedRequests).Uses group ref →
          (mixed.run mixedRequests).hasGroup group = true := by
  have built : ofConfig { name := "p", tables := [.trie, .list] } ⟨[⟨7⟩, ⟨9⟩]⟩ =
      .ok mixed := rfl
  exact ⟨built, by decide, by decide, run_provides built mixedRequests⟩

end PacketClassifier.Pipeline
