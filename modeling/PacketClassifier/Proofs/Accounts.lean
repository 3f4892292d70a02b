import PacketClassifier.Proofs.Aggregates
import PacketClassifier.Proofs.MatcherRuns
import PacketClassifier.Proofs.Notices

/-!
# What a table counts

A table counts its entries on its own, apart from the matcher that holds them: one more for
an entry that is added, none for one that is exchanged, and fewer by those that are taken
out.  The account is right as long as a request does to the matcher what it is counted for.
Since installed entries are told apart by priority and conjunction, a strict request, which
gives both, is about one entry at most.
-/

namespace PacketClassifier

variable {entries before after gone : List EntryRef} {joined : Option EntryRef}

/-- A turnover says how many there are afterwards. -/
theorem Turnover.length_eq (turnover : Turnover before after gone joined) :
    after.length + gone.length = before.length + joined.toList.length := by
  obtain ⟨kept, left, stayed⟩ := turnover
  have parts := left.length_eq
  have later := stayed.length_eq
  rw [List.length_append] at parts later
  omega

/-- Of entries that are told apart, a strict query selects one at most. -/
theorem ToldApart.length_selected_le {matcher : Matcher}
    (apart : ToldApart matcher.entries) (ledger : Ledger) {query : Query}
    (strict : query.strictness = .strict) :
    (matcher.selected ledger query).length ≤ 1 := by
  have keys : ((matcher.selected ledger query).map (·.rule.key)).Nodup :=
    apart.sublist (List.filter_sublist.map _)
  have named : ∀ key ∈ (matcher.selected ledger query).map (·.rule.key),
      key = query.template.toRule.key := by
    intro key member
    obtain ⟨ref, chosen, rfl⟩ := List.mem_map.mp member
    have selects : query.Selects (ledger.entry ref) := by
      simpa using (List.mem_filter.mp chosen).2
    unfold Query.Selects at selects
    rw [strict] at selects
    obtain ⟨priority, matchSet, -⟩ := selects.1
    exact Prod.ext priority matchSet
  have single := List.nodup_replicate.mp (List.eq_replicate_of_mem named ▸ keys)
  simpa using single

namespace Table

variable {table left : Table} {ledger last : Ledger} {reason : RemovalReason}

/-- The matcher is well-formed, and the table counts as many entries as it holds. -/
structure Accounted (table : Table) : Prop where
  formed : table.matcher.WellFormed
  count_eq : table.count = table.matcher.entries.length

namespace Accounted

theorem ofMatcher (id : TableId) {matcher : Matcher} (formed : matcher.WellFormed) :
    (Table.ofMatcher id matcher).Accounted where
  formed := formed
  count_eq := formed.size_eq

theorem add (accounted : table.Accounted) {exists? : GroupId → Bool} {template : Entry}
    {outcome : AddOutcome} {checkOverlap reset : Bool}
    (added : table.add ledger exists? template checkOverlap reset =
      .ok (outcome, left, last)) : left.Accounted := by
  have counted := accounted.count_eq
  rcases add_cases accounted.formed added with
    ⟨-, more, -, advance⟩ | ⟨old, -, -, same, -, advance⟩
  · refine ⟨advance.formed, ?_⟩
    have lengths := advance.turnover.length_eq
    simp only [List.length_nil, Option.toList_some, List.length_singleton] at lengths
    omega
  · refine ⟨advance.formed, ?_⟩
    have lengths := advance.turnover.length_eq
    simp only [Option.toList_some, List.length_singleton] at lengths
    omega

/-- Those that are taken out had been counted. -/
theorem remove (accounted : table.Accounted) {target : RemovalTarget} {count : Nat}
    (removed : table.remove ledger target reason = .ok (count, left, last)) :
    left.Accounted ∧ left.count + count = table.count := by
  have counted := accounted.count_eq
  obtain ⟨-, rfl, fewer, -, -, advance⟩ := remove_spec accounted.formed removed
  have lengths := advance.turnover.length_eq
  simp only [Option.toList_none, List.length_nil, Nat.add_zero] at lengths
  exact ⟨⟨advance.formed, by omega⟩, by omega⟩

theorem clear (accounted : table.Accounted) (ledger : Ledger) (reason : RemovalReason) :
    (table.clear ledger reason).2.1.Accounted := by
  obtain ⟨emptied, -, advance⟩ := clear_spec accounted.formed ledger reason
  refine ⟨advance.formed, ?_⟩
  rw [emptied, List.length_nil, Table.clear]
  by_cases none : table.matcher.entries.isEmpty = true
  · rw [if_pos none, accounted.count_eq, List.isEmpty_iff.mp none, List.length_nil]
  · rw [if_neg none]

end Accounted

namespace Stage

variable {stage : Stage}

theorem accounted_after (accounted : stage.table.Accounted) (request : Request) :
    (stage.after request).table.Accounted := by
  cases request with
  | add exists? entry checkOverlap reset =>
      cases added : stage.table.add stage.ledger exists? entry checkOverlap reset with
      | error cause => simpa only [Stage.after, added] using accounted
      | ok result => simpa only [Stage.after, added] using accounted.add added
  | modify exists? template strictness reset =>
      cases modified : stage.table.modify stage.ledger exists? template strictness
          reset with
      | error cause => simpa only [Stage.after, modified] using accounted
      | ok result => simpa only [Stage.after, modified] using accounted
  | remove target reason =>
      cases removed : stage.table.remove stage.ledger target reason with
      | error cause => simpa only [Stage.after, removed] using accounted
      | ok result => simpa only [Stage.after, removed] using (accounted.remove removed).1
  | clear reason => exact accounted.clear stage.ledger reason
  | classify packet thread bytes => exact accounted

theorem accounted_run (accounted : stage.table.Accounted) (requests : List Request) :
    (stage.run requests).table.Accounted := by
  induction requests generalizing stage with
  | nil => exact accounted
  | cons first rest ih => exact ih (accounted_after accounted first)

/-- A table as it is made on top of a matcher. -/
def on (id : TableId) (matcher : Matcher) (ledger : Ledger) : Stage where
  table := .ofMatcher id matcher
  ledger := ledger

/-- Whatever is asked with the query is about a single entry, or about none. -/
structure Singular (stage : Stage) (query : Query) : Prop where
  stats : (stage.table.matcher.flowStats stage.ledger query).length ≤ 1
  aggregate : (stage.table.matcher.aggregate stage.ledger query).flows ≤ 1
  removed : ∀ reason count left last,
    stage.table.remove stage.ledger (.selected query) reason = .ok (count, left, last) →
      count ≤ 1
  modified : ∀ exists? reset count last,
    stage.table.modify stage.ledger exists? query.template query.strictness reset =
      .ok (count, last) → count ≤ 1

theorem singular_of_strict (formed : stage.table.matcher.WellFormed) {query : Query}
    (strict : query.strictness = .strict) : stage.Singular query := by
  have selected := formed.toldApart.length_selected_le stage.ledger strict
  have replies : (stage.table.matcher.flowStats stage.ledger query).length ≤ 1 := by
    rw [Matcher.flowStats, List.length_map]
    exact selected
  constructor
  · exact replies
  · rw [Matcher.flows_aggregate]
    exact replies
  · intro reason count left last removed
    obtain ⟨-, rfl, -⟩ := remove_spec formed removed
    exact selected
  · intro exists? reset count last modified
    obtain ⟨-, -, rfl, -⟩ := modify_spec modified
    exact formed.toldApart.length_selected_le stage.ledger strict

/-- The table counts its entries, and tells them apart. -/
structure Exact (stage : Stage) : Prop where
  /-- No two installed entries have the same priority and conjunction. -/
  apart : ToldApart stage.entries
  count_eq : stage.table.count = stage.entries.length
  /-- No removal takes out more entries than are counted. -/
  removed : ∀ target reason count left last,
    stage.table.remove stage.ledger target reason = .ok (count, left, last) →
      left.count + count = stage.table.count
  singular : ∀ query : Query, query.strictness = .strict → stage.Singular query

/--
Whatever came before a table was made on top of a matcher, and whatever is asked of it
then, the table counts its entries and tells them apart.
-/
theorem run_exact (id : TableId) (kind : MatcherKind) (before : List Matcher.Request)
    (ledger : Ledger) (requests : List Request) :
    ((on id ((Matcher.empty kind).run before) ledger).run requests).Exact := by
  have start : (on id ((Matcher.empty kind).run before) ledger).table.Accounted :=
    .ofMatcher id ((Matcher.wellFormed_empty kind).run before)
  have accounted := accounted_run start requests
  exact ⟨accounted.formed.toldApart, accounted.count_eq,
    fun _ _ _ _ _ removed => (accounted.remove removed).2,
    fun _ => singular_of_strict accounted.formed⟩

/-- A table made on top of a list that holds the rule of the network. -/
def preloaded : Stage :=
  on ⟨0⟩ ((Matcher.empty .list).run [.add Trie.subnet true])
    (({} : Ledger).register { toRule := Trie.subnet.rule }).2

/--
The rule comes again with a cookie and takes the place of the one before, the rule of a
host joins it, and the rule with the cookie is removed.
-/
def reinstallation : List Request :=
  let again : Entry := { toRule := { Trie.subnet.rule with cookie := 1 } }
  let template : Entry := { again with cookieMask := 1 }
  [.add (fun _ => true) again false false,
    .add (fun _ => true) { toRule := Trie.host.rule } false false,
    .remove (.selected { template, strictness := .strict }) .delete]

/-- An entry that takes another's place is not counted twice, and a removed one no longer. -/
theorem reinstalled_exact :
    ((List.range 4).map fun length =>
        (preloaded.run (reinstallation.take length)).entries.map (·.id)) =
          [[0], [1], [2, 1], [2]] ∧
      ((List.range 4).map fun length =>
        (preloaded.run (reinstallation.take length)).table.count) = [1, 1, 2, 1] ∧
      (preloaded.run reinstallation).Exact :=
  ⟨by decide +kernel, by decide +kernel, run_exact ..⟩

end Stage

end Table

end PacketClassifier
