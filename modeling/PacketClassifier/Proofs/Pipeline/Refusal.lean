import PacketClassifier.Proofs.Pipeline.Integrity
import PacketClassifier.Proofs.TableSteps

/-!
# Requests that are refused

A request to a pipeline that is refused has changed nothing.  This is at stake where a
request is carried out table by table: what makes a table refuse it is looked for in
advance, in every table it is about, and what is left to be found out on the way is the
same for all tables, so the first one finds it before anything is done.
-/

namespace PacketClassifier

variable {ledger last : Ledger} {template : Entry} {cause : RequestError}

/-! ## One table -/

/-- Where entries can change, a modification is refused for the groups of its template. -/
theorem Table.exists_flaw_of_modify {table : Table} {exists? : GroupId → Bool}
    {strictness : Strictness} {reset : Bool}
    (able : table.matcher.supportsRemoval = true)
    (refused : table.modify ledger exists? template strictness reset = .error cause) :
    ∃ flaw, template.instructions.checkGroups exists? = .error flaw := by
  cases checked : template.instructions.checkGroups exists? with
  | error flaw => exact ⟨flaw, rfl⟩
  | ok _ =>
      rcases table with ⟨id, matcher, count⟩
      cases matcher with
      | trie tree => exact absurd able (by simp [Matcher.supportsRemoval])
      | list sequence =>
          rw [Table.modify, checked] at refused
          cases refused

theorem Table.modify_of_flaw {exists? : GroupId → Bool} {flaw : InstructionError}
    (flawed : template.instructions.checkGroups exists? = .error flaw) (table : Table)
    (ledger : Ledger) (strictness : Strictness) (reset : Bool) :
    table.modify ledger exists? template strictness reset = .error (.invalid flaw) := by
  rw [Table.modify, flawed]
  rfl

namespace Pipeline

variable {pipeline : Pipeline} {chosen : Table → Bool} {tables left : List Table}
  {request : Table → Ledger → Except RequestError (Nat × Table × Ledger)}

/-! ## Several tables -/

/-- If a request to several tables is refused, then one of them refused it. -/
theorem exists_refused_of_onTables
    (swept : onTables chosen request tables ledger = (.error cause, left, last)) :
    ∃ table ∈ tables, chosen table = true ∧
      ∃ ledger, request table ledger = .error cause := by
  induction tables generalizing ledger left last with
  | nil => exact absurd (congrArg Prod.fst swept) (by simp [onTables])
  | cons table rest ih =>
      have later : ∀ {between : Ledger},
          (onTables chosen request rest between).1 = .error cause →
            ∃ other ∈ table :: rest, chosen other = true ∧
              ∃ ledger, request other ledger = .error cause := by
        intro between failed
        obtain ⟨other, member, refused⟩ := ih
          (Prod.ext failed (Prod.eta (onTables chosen request rest between).2))
        exact ⟨other, List.mem_cons_of_mem table member, refused⟩
      have first := congrArg Prod.fst swept
      rw [onTables] at first
      split at first
      · rename_i picked
        split at first
        · rename_i refusal refused
          obtain rfl : refusal = cause := Except.error.inj first
          exact ⟨table, List.mem_cons_self, picked, ledger, refused⟩
        · rename_i count after between carried
          cases result : (onTables chosen request rest between).1 with
          | error other =>
              simp only [result, Except.map] at first
              exact later (result.trans first)
          | ok total => simp [result, Except.map] at first
      · exact later first

/--
A request that every table refuses if one does is refused by the first, before anything
is done.
-/
theorem onTables_refused
    (alike : ∀ table ∈ tables, chosen table = true →
      ∀ ledger cause, request table ledger = .error cause →
        ∀ other ∈ tables, chosen other = true →
          ∀ ledger, ∃ cause, request other ledger = .error cause)
    (swept : onTables chosen request tables ledger = (.error cause, left, last)) :
    left = tables ∧ last = ledger := by
  induction tables generalizing ledger left last with
  | nil => exact absurd (congrArg Prod.fst swept) (by simp [onTables])
  | cons table rest ih =>
      obtain ⟨refuser, member, picked, between, refused⟩ := exists_refused_of_onTables swept
      rw [onTables] at swept
      split at swept
      · rename_i first
        obtain ⟨refusal, early⟩ := alike refuser member picked between cause refused table
          List.mem_cons_self first ledger
        simp only [early, Prod.mk.injEq] at swept
        exact ⟨swept.2.1.symm, swept.2.2.symm⟩
      · rename_i skipped
        cases result : onTables chosen request rest ledger with
        | mk outcome state =>
            simp only [result, Prod.mk.injEq] at swept
            obtain ⟨rfl, rfl, rfl⟩ := swept
            have restAlike := fun other listed chosenOther ledger cause refusedOther
                another member => alike other (List.mem_cons_of_mem table listed)
              chosenOther ledger cause refusedOther another
              (List.mem_cons_of_mem table member)
            obtain ⟨kept, same⟩ := ih restAlike result
            exact ⟨congrArg (table :: ·) kept, same⟩

/-! ## What is looked for in advance -/

/-- A number designates tables if it is that of a table, or stands for all of them. -/
theorem targets_eq_ok_iff {id : TableId} {targets : List Table} :
    pipeline.targets id = .ok targets ↔
      (id = TableId.all ∨ id ∈ pipeline.tables.map (·.id)) ∧
        pipeline.tables.filter (fun table => Designates id table) = targets := by
  by_cases all : id = TableId.all
  · simp only [Pipeline.targets, all, ne_eq, not_true_eq_false, if_false, true_or, true_and]
    exact ⟨Except.ok.inj, congrArg Except.ok⟩
  · have looked : pipeline.targets id = (pipeline.table id).map (fun _ =>
        pipeline.tables.filter (fun table => Designates id table)) := by
      rw [Pipeline.targets, if_pos all]
      cases pipeline.table id <;> rfl
    have known : (∃ table, pipeline.table id = .ok table) ↔
        id ∈ pipeline.tables.map (·.id) := by
      unfold Pipeline.table Pipeline.table?
      split
      · rename_i table found
        have own := List.find?_some found
        have member := List.mem_of_find?_eq_some found
        exact iff_of_true ⟨table, rfl⟩ (List.mem_map.mpr ⟨table, member, by simpa using own⟩)
      · rename_i none
        refine iff_of_false (by simp) fun listed => ?_
        obtain ⟨table, member, same⟩ := List.mem_map.mp listed
        exact List.find?_eq_none.mp none table member (decide_eq_true same)
    rw [looked, ← known, or_iff_right all]
    cases pipeline.table id with
    | error cause => simp [Except.map]
    | ok table => simp [Except.map]

theorem mem_targets {id : TableId} {targets : List Table}
    (found : pipeline.targets id = .ok targets) {table : Table}
    (member : table ∈ pipeline.tables) (designated : Designates id table) :
    table ∈ targets := by
  obtain ⟨-, rfl⟩ := targets_eq_ok_iff.mp found
  exact List.mem_filter.mpr ⟨member, decide_eq_true designated⟩

theorem supportsRemoval_of_checkSupport {operation : Operation}
    (checked : checkSupport tables operation = .ok ()) {table : Table}
    (member : table ∈ tables) : table.matcher.supportsRemoval = true := by
  unfold checkSupport at checked
  split at checked
  · exact absurd checked (by simp)
  · rename_i none
    simpa using List.find?_eq_none.mp none table member

/-- A modification is checked against each table that it is about. -/
theorem checks_of_checkModify {id : TableId} {template : Entry}
    (checked : pipeline.checkModify id template = .ok ()) {table : Table}
    (member : table ∈ pipeline.tables) (designated : Designates id table) :
    table.matcher.supportsRemoval = true ∧
      pipeline.checkNextTable table.id template = .ok () := by
  obtain ⟨targets, found, checked⟩ := exists_of_bind_eq_ok checked
  obtain ⟨_, heads, able⟩ := exists_of_bind_eq_ok checked
  have listed := mem_targets found member designated
  exact ⟨supportsRemoval_of_checkSupport able listed, eq_ok_of_forM heads listed⟩

theorem supportsRemoval_of_checkRemove {id : TableId}
    (checked : pipeline.checkRemove id = .ok ()) {table : Table}
    (member : table ∈ pipeline.tables) (designated : Designates id table) :
    table.matcher.supportsRemoval = true := by
  obtain ⟨targets, found, able⟩ := exists_of_bind_eq_ok checked
  exact supportsRemoval_of_checkSupport able (mem_targets found member designated)

/-! ## Refusals -/

/-- The error of an outcome, if it is one. -/
def cause? {ε α : Type} : Except ε α → Option ε
  | .error cause => some cause
  | .ok _ => none

theorem cause?_eq_some {ε α : Type} {outcome : Except ε α} {cause : ε}
    (failed : cause? outcome = some cause) : outcome = .error cause := by
  cases outcome with
  | error other => exact congrArg Except.error (Option.some.inj failed)
  | ok value => cases failed

/-- Why a request is refused, if it is. -/
def refusal? (pipeline : Pipeline) : Request → Option PipelineError
  | .add id entry checkOverlap reset =>
      cause? (pipeline.add id entry checkOverlap reset).1
  | .modify id template strictness reset =>
      cause? (pipeline.modify id template strictness reset).1
  | .remove id query => cause? (pipeline.remove id query).1
  | .clear id reason => cause? (pipeline.clear id reason).1
  | .addGroup group => cause? (pipeline.addGroup group).1
  | .removeGroup group => cause? (pipeline.removeGroup group).1
  | .flowStats id query => cause? (pipeline.flowStats id query)
  | .aggregate id query => cause? (pipeline.aggregate id query)
  | .classify .. => none

theorem add_refused {id : TableId} {entry : Entry} {checkOverlap reset : Bool}
    {cause : PipelineError}
    (refused : (pipeline.add id entry checkOverlap reset).1 = .error cause) :
    (pipeline.add id entry checkOverlap reset).2 = pipeline := by
  unfold Pipeline.add at refused ⊢
  split at refused
  · rfl
  · rfl
  · rename_i table _ _
    unfold install at refused ⊢
    cases added : table.add pipeline.ledger pipeline.hasGroup entry checkOverlap reset with
    | error cause => rfl
    | ok result => simp [added, Except.mapError] at refused

theorem onEach_refused {cause : PipelineError}
    (alike : ∀ table ∈ pipeline.tables, chosen table = true →
      ∀ ledger cause, request table ledger = .error cause →
        ∀ other ∈ pipeline.tables, chosen other = true →
          ∀ ledger, ∃ cause, request other ledger = .error cause)
    (refused : (pipeline.onEach chosen request).1 = .error cause) :
    (pipeline.onEach chosen request).2 = pipeline := by
  cases swept : onTables chosen request pipeline.tables pipeline.ledger with
  | mk outcome state =>
      simp only [onEach, swept] at refused ⊢
      cases outcome with
      | ok count => simp [Except.mapError] at refused
      | error other =>
          obtain ⟨kept, same⟩ := onTables_refused alike swept
          rw [kept, same]

/-- A modification is refused in advance, or by every table for the same groups. -/
theorem modify_refused {id : TableId} {template : Entry} {strictness : Strictness}
    {reset : Bool} {cause : PipelineError}
    (refused : (pipeline.modify id template strictness reset).1 = .error cause) :
    (pipeline.modify id template strictness reset).2 = pipeline := by
  unfold Pipeline.modify at refused ⊢
  split
  · rfl
  · rename_i checked
    simp only [checked] at refused
    refine onEach_refused ?_ refused
    intro table member designated ledger cause failed other _ _ later
    have able := (checks_of_checkModify checked member (of_decide_eq_true designated)).1
    cases modified : table.modify ledger pipeline.hasGroup template strictness reset with
    | ok result => simp [modified, bind, Except.bind, pure, Except.pure] at failed
    | error reason =>
        obtain ⟨flaw, flawed⟩ := Table.exists_flaw_of_modify able modified
        refine ⟨.invalid flaw, ?_⟩
        rw [Table.modify_of_flaw flawed]
        rfl

/-- Where every chosen table can give up entries, none of them refuses a removal. -/
theorem onEach_remove_accepted (pipeline : Pipeline)
    (able : ∀ table ∈ pipeline.tables, chosen table = true →
      table.matcher.supportsRemoval = true) (query : Query) (reason : RemovalReason)
    (cause : PipelineError) :
    (pipeline.onEach chosen (fun table ledger =>
      table.remove ledger (.selected query) reason)).1 ≠ .error cause := by
  obtain ⟨left, last, swept, -⟩ := onTables_remove able pipeline.ledger query reason
  simp [onEach, swept, Except.mapError]

theorem remove_refused {id : TableId} {query : Query} {cause : PipelineError}
    (refused : (pipeline.remove id query).1 = .error cause) :
    (pipeline.remove id query).2 = pipeline := by
  cases checked : pipeline.checkRemove id with
  | error cause => simp only [Pipeline.remove, checked]
  | ok _ =>
      simp only [Pipeline.remove, checked] at refused
      exact absurd refused (pipeline.onEach_remove_accepted
        (fun table member designated => supportsRemoval_of_checkRemove checked member
          (of_decide_eq_true designated)) query .delete cause)

theorem removeGroup_refused {group : GroupId} {cause : PipelineError}
    (refused : (pipeline.removeGroup group).1 = .error cause) :
    (pipeline.removeGroup group).2 = pipeline := by
  cases known : pipeline.hasGroup group with
  | false => simp [removeGroup, known]
  | true =>
      cases free : pipeline.holder? group with
      | some table => simp [removeGroup, known, free]
      | none =>
          simp only [removeGroup, known, free] at refused
          exact absurd refused (onEach_remove_accepted _ (fun _ _ able => able)
            (usersQuery group) .groupDelete cause)

/--
A request that is refused leaves a pipeline as it was: its tables with their entries, in
order, and their counts, what the ledger knows of every entry, the notices, and the groups.
-/
theorem after_eq_of_refusal {request : Request} {cause : PipelineError}
    (refused : pipeline.refusal? request = some cause) :
    pipeline.after request = pipeline := by
  cases request with
  | add id entry checkOverlap reset => exact add_refused (cause?_eq_some refused)
  | modify id template strictness reset => exact modify_refused (cause?_eq_some refused)
  | remove id query => exact remove_refused (cause?_eq_some refused)
  | clear id reason =>
      cases found : pipeline.table id with
      | error other => simp only [after, Pipeline.clear, found]
      | ok table => simp [refusal?, Pipeline.clear, found, cause?] at refused
  | addGroup group =>
      cases known : pipeline.hasGroup group with
      | true => simp [after, Pipeline.addGroup, known]
      | false => simp [refusal?, Pipeline.addGroup, known, cause?] at refused
  | removeGroup group => exact removeGroup_refused (cause?_eq_some refused)
  | flowStats id query => rfl
  | aggregate id query => rfl
  | classify packet thread bytes => cases refused

/-- An entry in a table that could give it up, before a table that cannot give up any. -/
def barred : Pipeline :=
  let empty : Pipeline := { name := "p", tables := emptyTables [.list, .trie] }
  empty.after (.add ⟨0⟩ { notifiesRemoval := true } false false)

theorem barred_remove_all :
    barred.tables.map (·.count) = [1, 0] ∧
      barred.refusal? (.remove .all {}) = some (.request (.unsupported .trie .remove)) ∧
      barred.after (.remove .all {}) = barred := by
  have refused : barred.refusal? (.remove .all {}) =
      some (.request (.unsupported .trie .remove)) := by decide
  exact ⟨by decide, refused, after_eq_of_refusal refused⟩

end Pipeline

end PacketClassifier
