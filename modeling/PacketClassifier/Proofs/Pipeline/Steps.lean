import PacketClassifier.Proofs.Pipeline.Refusal

/-!
# Requests as steps of tables

Whatever a pipeline is asked, it changes one table at a time: it checks the request, and
has a table carry it out.  What every such step keeps of a row of tables and of the ledger,
every request keeps, also one that is refused.
-/

namespace PacketClassifier

/-! ## Tables keep their numbers -/

namespace Table

variable {table left : Table} {ledger last : Ledger} {reset : Bool}

theorem id_of_add {exists? : GroupId → Bool} {entry : Entry} {checkOverlap : Bool}
    {outcome : AddOutcome}
    (added : table.add ledger exists? entry checkOverlap reset = .ok (outcome, left, last)) :
    left.id = table.id := by
  unfold add at added
  obtain ⟨-, -, added⟩ := exists_of_bind_eq_ok added
  obtain ⟨change, -, added⟩ := exists_of_bind_eq_ok added
  split at added <;> cases added <;> rfl

theorem id_of_remove {target : RemovalTarget} {reason : RemovalReason} {count : Nat}
    (removed : table.remove ledger target reason = .ok (count, left, last)) :
    left.id = table.id := by
  unfold remove at removed
  obtain ⟨change, -, removed⟩ := exists_of_bind_eq_ok removed
  simp only at removed
  split at removed <;> cases removed <;> rfl

theorem id_clear (table : Table) (ledger : Ledger) (reason : RemovalReason) :
    (table.clear ledger reason).2.1.id = table.id := by
  unfold clear
  simp only
  split <;> rfl

end Table

namespace Pipeline

variable {pipeline : Pipeline} {request : Request} {table left : Table}
  {ledger last : Ledger} {tables front back : List Table}

/-! ## Steps -/

/-- What a request does to a table, once the pipeline has checked it for that table. -/
inductive Step (pipeline : Pipeline) :
    Request → Table → Ledger → Table → Ledger → Prop where
  | add {table left : Table} {ledger last : Ledger} {entry : Entry}
      {checkOverlap reset : Bool} {outcome : AddOutcome}
      (checked : pipeline.checkNextTable table.id entry = .ok ())
      (added : table.add ledger pipeline.hasGroup entry checkOverlap reset =
        .ok (outcome, left, last)) :
      Step pipeline (.add table.id entry checkOverlap reset) table ledger left last
  | modify {id : TableId} {table : Table} {ledger last : Ledger} {template : Entry}
      {strictness : Strictness} {reset : Bool} {count : Nat}
      (checked : pipeline.checkNextTable table.id template = .ok ())
      (modified : table.modify ledger pipeline.hasGroup template strictness reset =
        .ok (count, last)) :
      Step pipeline (.modify id template strictness reset) table ledger table last
  | remove {id : TableId} {table left : Table} {ledger last : Ledger} {query : Query}
      {count : Nat}
      (removed : table.remove ledger (.selected query) .delete = .ok (count, left, last)) :
      Step pipeline (.remove id query) table ledger left last
  | clear {table : Table} {ledger : Ledger} {reason : RemovalReason} :
      Step pipeline (.clear table.id reason) table ledger
        (table.clear ledger reason).2.1 (table.clear ledger reason).2.2
  | removeGroup {group : GroupId} {table left : Table} {ledger last : Ledger} {count : Nat}
      (removed : table.remove ledger (.selected (usersQuery group)) .groupDelete =
        .ok (count, left, last)) :
      Step pipeline (.removeGroup group) table ledger left last
  | classify {table : Table} {ledger : Ledger} {packet : Packet} {thread : ThreadId}
      {bytes : UInt64} {hit : EntryRef} (found : table.find? packet = some hit) :
      Step pipeline (.classify packet thread bytes) table ledger table
        (ledger.update hit (·.hit thread bytes))

namespace Step

theorem id (step : pipeline.Step request table ledger left last) : left.id = table.id := by
  cases step with
  | add _ added => exact Table.id_of_add added
  | modify => rfl
  | remove removed => exact Table.id_of_remove removed
  | clear => exact Table.id_clear ..
  | removeGroup removed => exact Table.id_of_remove removed
  | classify => rfl

/-- A step turns the entries of its table over, and leaves other entries as they are. -/
theorem advance (step : pipeline.Step request table ledger left last)
    (formed : table.matcher.WellFormed) :
    ∃ gone joined, table.Advance ledger left last gone joined := by
  cases step with
  | add _ added =>
      rcases Table.add_cases formed added with
        ⟨-, -, -, advance⟩ | ⟨old, -, -, -, -, advance⟩
      · exact ⟨_, _, advance⟩
      · exact ⟨_, _, advance⟩
  | modify _ modified =>
      obtain ⟨-, -, -, rfl⟩ := Table.modify_spec modified
      exact ⟨_, _, .updateAll formed ledger List.filter_sublist _⟩
  | remove removed => exact ⟨_, _, (Table.remove_spec formed removed).2.2.2.2.2⟩
  | clear => exact ⟨_, _, (Table.clear_spec formed ledger _).2.2⟩
  | removeGroup removed => exact ⟨_, _, (Table.remove_spec formed removed).2.2.2.2.2⟩
  | classify found =>
      have installed := List.singleton_sublist.mpr (formed.mem_of_find? found)
      exact ⟨_, _, .updateAll formed ledger installed _⟩

end Step

/-! ## Every request consists of steps -/

/-- A table that is found by its number stands in the row, where another can be put. -/
theorem exists_place (distinct : (pipeline.tables.map (·.id)).Nodup)
    (found : pipeline.table table.id = .ok table) :
    ∃ front back, pipeline.tables = front ++ table :: back ∧
      ∀ left last, left.id = table.id →
        (pipeline.setTable left last).tables = front ++ left :: back := by
  obtain ⟨front, back, same⟩ := List.append_of_mem (mem_of_table_eq_ok found)
  refine ⟨front, back, same, fun left last own => ?_⟩
  rw [same, List.map_append, List.map_cons, List.nodup_middle, ← List.map_append] at distinct
  have others : ∀ other ∈ front ++ back, other.id ≠ left.id := by
    intro other member equal
    exact (List.nodup_cons.mp distinct).1
      (own ▸ equal ▸ List.mem_map_of_mem (f := (·.id)) member)
  have kept : ∀ part : List Table, part ⊆ front ++ back →
      part.map (fun other => if other.id = left.id then left else other) = part := by
    intro part within
    refine (List.map_congr_left fun other member => ?_).trans (List.map_id part)
    exact if_neg (others other (within member))
  show pipeline.tables.map _ = _
  rw [same, List.map_append, List.map_cons, if_pos own.symm,
    kept front (List.subset_append_left front back),
    kept back (List.subset_append_right front back)]

theorem id_of_table_eq_ok {id : TableId} (found : pipeline.table id = .ok table) :
    table.id = id := by
  unfold Pipeline.table at found
  split at found
  · rename_i listed
    obtain rfl := Except.ok.inj found
    simpa using List.find?_some listed
  · exact absurd found (by simp)

/-- A new entry is refused, or a single table takes a step. -/
theorem after_add_cases (distinct : (pipeline.tables.map (·.id)).Nodup) (id : TableId)
    (entry : Entry) (checkOverlap reset : Bool) :
    pipeline.after (.add id entry checkOverlap reset) = pipeline ∨
      ∃ front table back left last, pipeline.tables = front ++ table :: back ∧
        pipeline.Step (.add id entry checkOverlap reset) table pipeline.ledger left last ∧
        (pipeline.after (.add id entry checkOverlap reset)).tables =
          front ++ left :: back ∧
        (pipeline.after (.add id entry checkOverlap reset)).ledger = last := by
  simp only [after, Pipeline.add]
  split
  · exact Or.inl rfl
  · exact Or.inl rfl
  · rename_i table valid found
    simp only [install]
    split
    · exact Or.inl rfl
    · rename_i outcome left last added
      obtain rfl := id_of_table_eq_ok found
      obtain ⟨_, -, valid⟩ := exists_of_bind_eq_ok valid
      obtain ⟨_, checked, -⟩ := exists_of_bind_eq_ok valid
      have step := Step.add checked added
      obtain ⟨front, back, same, placed⟩ := exists_place distinct found
      exact Or.inr ⟨front, table, back, left, last, same, step, placed left last step.id,
        rfl⟩

/--
What each step of a request keeps, whatever table of the row it is a step of, the request
keeps.
-/
theorem after_induction (distinct : (pipeline.tables.map (·.id)).Nodup)
    (request : Request) {motive : List Table → Ledger → Prop}
    (steps : ∀ front table back ledger left last,
      pipeline.Step request table ledger left last →
        motive (front ++ table :: back) ledger → motive (front ++ left :: back) last)
    (holds : motive pipeline.tables pipeline.ledger) :
    motive (pipeline.after request).tables (pipeline.after request).ledger := by
  cases request with
  | add id entry checkOverlap reset =>
      rcases after_add_cases distinct id entry checkOverlap reset with
        same | ⟨front, table, back, left, last, same, step, tables, ledger⟩
      · rw [same]
        exact holds
      · rw [tables, ledger]
        exact steps front table back _ left last step (same ▸ holds)
  | modify id template strictness reset =>
      simp only [after, Pipeline.modify]
      split
      · exact holds
      · rename_i checked
        refine onTables_induction ?_ [] holds
        intro front table back ledger count left last member designated carried
        obtain ⟨outcome, modified, carried⟩ := exists_of_bind_eq_ok carried
        obtain ⟨-, rfl, rfl⟩ : _ ∧ table = left ∧ outcome.2 = last := by
          simpa only [Prod.mk.injEq] using Except.ok.inj carried
        have heads :=
          (checks_of_checkModify checked member (of_decide_eq_true designated)).2
        exact steps front table back ledger table _ (.modify heads modified)
  | remove id query =>
      simp only [after, Pipeline.remove]
      split
      · exact holds
      · refine onTables_induction ?_ [] holds
        intro front table back ledger count left last _ _ removed
        exact steps front table back ledger left last (.remove removed)
  | clear id reason =>
      simp only [after, Pipeline.clear]
      split
      · exact holds
      · rename_i table found
        obtain rfl := id_of_table_eq_ok found
        obtain ⟨front, back, same, placed⟩ := exists_place distinct found
        rw [placed _ _ (Table.id_clear table pipeline.ledger reason)]
        exact steps front table back _ _ _ .clear (same ▸ holds)
  | addGroup group =>
      simp only [after, Pipeline.addGroup]
      split <;> exact holds
  | removeGroup group =>
      simp only [after, Pipeline.removeGroup]
      split
      · exact holds
      · split
        · exact holds
        · -- the group has gone by now, which a removal does not look at
          refine onTables_induction ?_ [] holds
          intro front table back ledger count left last _ _ removed
          exact steps front table back ledger left last (.removeGroup removed)
  | flowStats id query => exact holds
  | aggregate id query => exact holds
  | classify packet thread bytes =>
      refine classifyFrom_induction ?_ ⟨0⟩ holds
      intro table member hit ledger found
      obtain ⟨front, back, same⟩ := List.append_of_mem member
      show motive pipeline.tables ledger → motive pipeline.tables _
      rw [same]
      exact steps front table back ledger table _ (.classify found)

end Pipeline

end PacketClassifier
