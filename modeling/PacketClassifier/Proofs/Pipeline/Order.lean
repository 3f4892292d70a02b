import PacketClassifier.Proofs.Pipeline.Steps

/-!
# Tables in their places

The tables of a pipeline keep their numbers, which are their places in the row, and no
entry is in two tables or twice in one.  Each table bears a property of its own along
every run, if the property holds of all instructions that are accepted for that table: a
step of one table brings accepted instructions to it, and leaves the others as they are.
-/

namespace PacketClassifier.Pipeline

variable {pipeline : Pipeline} {request : Request} {table left : Table}
  {ledger last : Ledger} {front back : List Table}
  {valid : TableId → InstructionSet → Prop}

/-! ## Rows of tables -/

/--
Each table bears a property that is its own, and the ledger tells the entries of all
tables apart.
-/
structure Arrayed (valid : TableId → InstructionSet → Prop) (tables : List Table)
    (ledger : Ledger) : Prop where
  bears : ∀ table ∈ tables, table.Bears (valid table.id) ledger
  tracks : ledger.Tracks (tables.flatMap (·.matcher.entries))

/-- The check of the next table lets only instructions pass that have the property. -/
def Admits (count : Nat) (valid : TableId → InstructionSet → Prop) : Prop :=
  ∀ id (set : InstructionSet), set.checkNextTable id count = .ok () → valid id set

theorem Step.bears (admits : Admits pipeline.tables.length valid)
    (step : pipeline.Step request table ledger left last)
    (bears : table.Bears (valid table.id) ledger) : left.Bears (valid table.id) last := by
  have admitted : ∀ {entry : Entry}, pipeline.checkNextTable table.id entry = .ok () →
      valid table.id entry.instructions :=
    fun checked => admits _ _ (eq_ok_of_mapError checked)
  cases step with
  | add checked added => exact (bears.add (fun _ => admitted checked) added).1
  | modify checked modified =>
      exact bears.turn (Table.Bears.modify (fun _ => admitted checked) modified)
  | remove removed => exact (bears.remove removed).1
  | clear => exact (bears.clear _).1
  | removeGroup removed => exact (bears.remove removed).1
  | classify => exact bears.turn (ledger.turns_hit ..)

/-- The entries of a table in a row, and those of the others. -/
theorem flatMap_entries_perm (front : List Table) (table : Table) (back : List Table) :
    ((front ++ table :: back).flatMap (·.matcher.entries)).Perm
      (table.matcher.entries ++ (front ++ back).flatMap (·.matcher.entries)) := by
  rw [List.flatMap_append, List.flatMap_cons, List.flatMap_append, ← List.append_assoc,
    ← List.append_assoc]
  exact List.perm_append_comm.append_right _

/-- What a table turns over, its row turns over. -/
theorem turnover_flatMap_entries {gone : List EntryRef} {joined : Option EntryRef}
    (turnover : Turnover table.matcher.entries left.matcher.entries gone joined)
    (front back : List Table) :
    Turnover ((front ++ table :: back).flatMap (·.matcher.entries))
      ((front ++ left :: back).flatMap (·.matcher.entries)) gone joined := by
  simp only [List.flatMap_append, List.flatMap_cons, ← List.append_assoc]
  exact turnover.frame _ _

namespace Arrayed

theorem tracks_one (arrayed : Arrayed valid (front ++ table :: back) ledger) :
    ledger.Tracks table.matcher.entries :=
  (arrayed.tracks.perm (flatMap_entries_perm front table back)).sublist
    (List.sublist_append_left _ _)

/-- No entry of another table has the identity of an entry of this one. -/
theorem apart (arrayed : Arrayed valid (front ++ table :: back) ledger) {other : Table}
    (member : other ∈ front ++ back) {ref : EntryRef}
    (installed : ref ∈ other.matcher.entries) :
    ref.id ∉ table.matcher.entries.map (·.id) := by
  have apart := (arrayed.tracks.perm (flatMap_entries_perm front table back)).apart
  rw [List.map_append] at apart
  intro listed
  refine (List.nodup_append'.mp apart).2.2 listed (List.mem_map_of_mem ?_)
  exact List.mem_flatMap.mpr ⟨other, member, installed⟩

/-- While a table takes a step, the others bear what they did. -/
theorem bears_other (arrayed : Arrayed valid (front ++ table :: back) ledger)
    {gone : List EntryRef} {joined : Option EntryRef}
    (advance : table.Advance ledger left last gone joined) {other : Table}
    (member : other ∈ front ++ back) : other.Bears (valid other.id) last := by
  have bears : other.Bears (valid other.id) ledger := arrayed.bears other (by
    rcases List.mem_append.mp member with before | behind <;> simp [*])
  have same : ∀ ref ∈ other.matcher.entries, last.state ref.id = ledger.state ref.id :=
    fun ref installed => advance.frame ref.id (bears.known ref installed)
      (arrayed.apart member installed)
  refine ⟨bears.formed, fun ref installed => ?_, fun ref installed => ?_⟩
  · exact Nat.lt_of_lt_of_le (bears.known ref installed) advance.grown
  · rw [same ref installed]
    exact bears.valid ref installed

/-- A table takes a step in its row. -/
theorem step (arrayed : Arrayed valid (front ++ table :: back) ledger)
    (admits : Admits pipeline.tables.length valid)
    (step : pipeline.Step request table ledger left last) :
    Arrayed valid (front ++ left :: back) last := by
  have own : table.Bears (valid table.id) ledger := arrayed.bears table (by simp)
  obtain ⟨gone, joined, advance⟩ := step.advance own.formed
  constructor
  · intro other member
    rcases List.mem_append.mp member with before | behind
    · exact arrayed.bears_other advance (List.mem_append_left back before)
    · rcases List.mem_cons.mp behind with rfl | behind
      · rw [step.id]
        exact step.bears admits own
      · exact arrayed.bears_other advance (List.mem_append_right front behind)
  · exact (turnover_flatMap_entries advance.turnover front back).tracks arrayed.tracks
      advance.grown advance.issued

end Arrayed

/-! ## Runs -/

/--
The tables are numbered from zero, fewer than all numbers, and each of them bears its
property.
-/
structure Orderly (count : Nat) (valid : TableId → InstructionSet → Prop)
    (pipeline : Pipeline) : Prop where
  numbered : pipeline.tables.map (·.id) =
    (List.range count).map (fun place => ⟨UInt8.ofNat place⟩)
  few : count ≤ maxTables
  arrayed : Arrayed valid pipeline.tables pipeline.ledger

/-- A number is that of one place only. -/
theorem ofNat_eq_iff {place : Nat} (small : place < 256) (id : TableId) :
    (⟨UInt8.ofNat place⟩ : TableId) = id ↔ place = id.number.toNat := by
  rw [TableId.mk.injEq, ← UInt8.toNat_inj, UInt8.toNat_ofNat', Nat.mod_eq_of_lt small]

namespace Orderly

variable {count : Nat}

theorem length (orderly : pipeline.Orderly count valid) : pipeline.tables.length = count := by
  simpa using congrArg List.length orderly.numbered

theorem small (orderly : pipeline.Orderly count valid) {place : Nat}
    (placed : place < count) : place < 256 :=
  Nat.lt_of_lt_of_le placed (Nat.le_succ_of_le orderly.few)

theorem distinct (orderly : pipeline.Orderly count valid) :
    (pipeline.tables.map (·.id)).Nodup := by
  rw [orderly.numbered]
  refine List.nodup_range.map_on fun place placed other otherPlaced same => ?_
  rw [ofNat_eq_iff (orderly.small (List.mem_range.mp placed)), UInt8.toNat_ofNat',
    Nat.mod_eq_of_lt (orderly.small (List.mem_range.mp otherPlaced))] at same
  exact same

theorem id_getElem (orderly : pipeline.Orderly count valid) {place : Nat}
    (placed : place < pipeline.tables.length) :
    pipeline.tables[place].id = ⟨UInt8.ofNat place⟩ := by
  have read := congrArg (·[place]?) orderly.numbered
  simpa [placed, orderly.length ▸ placed] using read

/-- The table of a number is the one in its place. -/
theorem table?_eq (orderly : pipeline.Orderly count valid) (id : TableId) :
    pipeline.table? id = pipeline.tables[id.number.toNat]? := by
  have own : ∀ {place : Nat} (placed : place < pipeline.tables.length),
      pipeline.tables[place].id = id ↔ place = id.number.toNat := by
    intro place placed
    rw [orderly.id_getElem placed, ofNat_eq_iff (orderly.small (orderly.length ▸ placed))]
  cases found : pipeline.tables[id.number.toNat]? with
  | none =>
      rw [List.getElem?_eq_none_iff] at found
      refine List.find?_eq_none.mpr fun table member => ?_
      obtain ⟨place, placed, rfl⟩ := List.getElem_of_mem member
      simp only [decide_eq_true_eq, own placed]
      omega
  | some table =>
      obtain ⟨placed, rfl⟩ := List.getElem?_eq_some_iff.mp found
      refine List.find?_eq_some_iff_getElem.mpr
        ⟨decide_eq_true ((own placed).mpr rfl), _, placed, rfl, fun earlier before => ?_⟩
      simpa [own (Nat.lt_trans before placed)] using Nat.ne_of_lt before

theorem after (orderly : pipeline.Orderly count valid) (admits : Admits count valid)
    (request : Request) : (pipeline.after request).Orderly count valid := by
  obtain ⟨ids, arrayed⟩ := after_induction orderly.distinct request
    (motive := fun tables ledger =>
      tables.map (·.id) = pipeline.tables.map (·.id) ∧ Arrayed valid tables ledger)
    (fun front table back ledger left last step held => by
      refine ⟨?_, held.2.step (orderly.length.symm ▸ admits) step⟩
      rw [← held.1, List.map_append, List.map_append, List.map_cons, List.map_cons, step.id])
    ⟨rfl, orderly.arrayed⟩
  exact ⟨ids.trans orderly.numbered, orderly.few, arrayed⟩

theorem run (orderly : pipeline.Orderly count valid) (admits : Admits count valid)
    (requests : List Request) : (pipeline.run requests).Orderly count valid := by
  induction requests generalizing pipeline with
  | nil => exact orderly
  | cons first rest ih => exact ih (orderly.after admits first)

end Orderly

/-- A configuration that is accepted has a table, and no more than there are numbers for. -/
theorem bounds_of_ofConfig {config : PipelineConfig} {groups : GroupSet} {start : Pipeline}
    (built : ofConfig config groups = .ok start) :
    0 < config.tables.length ∧ config.tables.length ≤ maxTables := by
  obtain ⟨_, accepted, -⟩ := exists_of_bind_eq_ok built
  have accepted := eq_ok_of_mapError accepted
  unfold PipelineConfig.validate at accepted
  split at accepted
  · cases accepted
  · rename_i some
    split at accepted
    · cases accepted
    · rename_i few
      exact ⟨List.length_pos_iff.mpr (by simpa using some), Nat.le_of_not_lt few⟩

theorem installed_of_ofConfig {config : PipelineConfig} {groups : GroupSet}
    {start : Pipeline} (built : ofConfig config groups = .ok start) :
    start.installed = [] :=
  List.flatMap_eq_nil_iff.mpr fun table member => (empty_of_ofConfig built table member).2

theorem orderly_ofConfig {config : PipelineConfig} {groups : GroupSet} {start : Pipeline}
    (built : ofConfig config groups = .ok start)
    (valid : TableId → InstructionSet → Prop) :
    start.Orderly config.tables.length valid where
  numbered := by
    obtain ⟨-, -, built⟩ := exists_of_bind_eq_ok built
    obtain rfl := Except.ok.inj built
    show (emptyTables config.tables).map (·.id) = _
    rw [emptyTables, List.map_map, List.range_eq_range', ← List.zipIdx_map_snd 0,
      List.map_map]
    rfl
  few := (bounds_of_ofConfig built).2
  arrayed := {
    bears := fun table member => by
      obtain ⟨formed, none⟩ := empty_of_ofConfig built table member
      exact ⟨formed, by simp [none], by simp [none]⟩
    tracks := by
      show Ledger.Tracks _ start.installed
      rw [installed_of_ofConfig built]
      exact .nil _ }

end PacketClassifier.Pipeline
