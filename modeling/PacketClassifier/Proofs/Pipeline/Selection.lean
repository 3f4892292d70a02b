import PacketClassifier.Proofs.Aggregates
import PacketClassifier.Proofs.Pipeline.Refusal

/-!
# Statistics and removals of the same entries

Statistics come entry by entry, as sums over the entries of each table, and in the number
that a removal returns.  All of them are about the entries that a query selects in the
tables that a number designates, so they agree.  A removal takes out these entries and
leaves the others as they are, so a second one finds nothing to take out.
-/

namespace PacketClassifier

/-! ## Sums over several lists -/

/-- Lists picked by a test, one after the other, are lists of which the others are empty. -/
theorem flatMap_filter_eq {α β : Type} (list : List α) (picked : α → Bool)
    (part : α → List β) :
    (list.filter picked).flatMap part =
      list.flatMap (fun item => if picked item then part item else []) := by
  induction list with
  | nil => rfl
  | cons first rest ih =>
      rw [List.filter_cons, List.flatMap_cons, ← ih]
      split <;> rfl

/-- Words add up like numbers do, as long as the sum fits into a word. -/
theorem toNat_sum_of_fits {list : List UInt64}
    (fits : (list.map UInt64.toNat).sum < 2 ^ 64) :
    list.sum.toNat = (list.map UInt64.toNat).sum :=
  (toNat_sum list).trans (Nat.mod_eq_of_lt fits)

namespace Pipeline

variable {pipeline after : Pipeline} {id : TableId} {query : Query}
  {targets : List Table} {replies : List FlowReply}

/-! ## Statistics -/

theorem flowStats_eq (found : pipeline.targets id = .ok targets) (query : Query) :
    pipeline.flowStats id query = .ok (targets.flatMap
      (fun table => table.matcher.flowStats pipeline.ledger query)) := by
  have listed : pipeline.flowStats id query = .ok ((targets.map (fun table =>
      (table, table.matcher.flowStats pipeline.ledger query))).flatMap (·.2)) := by
    rw [flowStats, flowStatsByTable, found]
    rfl
  rw [listed, List.flatMap_map]

theorem aggregate_eq (found : pipeline.targets id = .ok targets) (query : Query) :
    pipeline.aggregate id query = .ok (targets.map
      (fun table => table.matcher.aggregate pipeline.ledger query)).sum := by
  rw [aggregate, found, ← Aggregate.foldl_add_eq_sum]
  rfl

/-- The sums are about as many entries as there are replies, and are sums over these. -/
theorem aggregate_of_flowStats (listed : pipeline.flowStats id query = .ok replies) :
    pipeline.aggregate id query =
      .ok ⟨replies.length, (replies.map (·.counters)).sum⟩ := by
  cases found : pipeline.targets id with
  | error cause =>
      rw [flowStats, flowStatsByTable, found] at listed
      cases listed
  | ok targets =>
      obtain rfl := Except.ok.inj ((flowStats_eq found query).symm.trans listed)
      rw [aggregate_eq found]
      congr 1
      apply Aggregate.ext
      · rw [Aggregate.flows_sum, List.map_map, List.length_flatMap]
        exact congrArg List.sum (List.map_congr_left fun table _ =>
          table.matcher.flows_aggregate pipeline.ledger query)
      · have grouped : ((targets.flatMap (fun table =>
            table.matcher.flowStats pipeline.ledger query)).map (·.counters)).sum =
            (targets.map (fun table => ((table.matcher.flowStats pipeline.ledger query).map
              (·.counters)).sum)).sum := by
          rw [List.map_flatMap, List.flatMap_def, List.sum_flatten, List.map_map]
          rfl
        rw [Aggregate.counters_sum, List.map_map, grouped]
        exact congrArg List.sum (List.map_congr_left fun table _ =>
          table.matcher.counters_aggregate pipeline.ledger query)

/-! ## Removals -/

/-- What the query selects in the designated tables has gone, and nothing else changed. -/
structure Sheds (pipeline : Pipeline) (id : TableId) (query : Query) (after : Pipeline) :
    Prop where
  contents : after.tables.map Table.contents = pipeline.tables.map (fun table =>
    if Designates id table then table.without pipeline.ledger query else table.contents)
  entries : ∀ ref, after.ledger.entry ref = pipeline.ledger.entry ref
  groups : after.groups = pipeline.groups

theorem remove_eq (found : pipeline.targets id = .ok targets)
    (able : ∀ table ∈ targets, table.matcher.supportsRemoval = true) (query : Query) :
    ∃ after, pipeline.remove id query =
        (.ok (targets.flatMap (·.matcher.selected pipeline.ledger query)).length, after) ∧
      pipeline.Sheds id query after := by
  obtain ⟨-, rfl⟩ := targets_eq_ok_iff.mp found
  have designatedAble : ∀ table ∈ pipeline.tables, decide (Designates id table) = true →
      table.matcher.supportsRemoval = true :=
    fun table member designated => able table (List.mem_filter.mpr ⟨member, designated⟩)
  have checked : pipeline.checkRemove id = .ok () := by
    rw [checkRemove, found]
    show checkSupport _ _ = _
    rw [checkSupport, List.find?_eq_none.mpr (by simpa using able)]
  obtain ⟨left, ledger, swept, contents, agrees⟩ :=
    onTables_remove designatedAble pipeline.ledger query .delete
  refine ⟨{ pipeline with tables := left, ledger }, ?_, ?_, agrees.entry, rfl⟩
  · rw [remove, checked]
    simp only [onEach, swept, flatMap_filter_eq]
    rfl
  · simpa using contents

namespace Sheds

/-- Nothing that the query selects is left in a designated table. -/
theorem selected_eq_nil (sheds : pipeline.Sheds id query after) {left : Table}
    (listed : left ∈ after.tables) (designated : Designates id left) :
    left.matcher.selected after.ledger query = [] := by
  have held := List.mem_map_of_mem (f := Table.contents) listed
  rw [sheds.contents] at held
  obtain ⟨table, -, same⟩ := List.mem_map.mp held
  have own : Designates id table := by
    by_cases own : Designates id table
    · exact own
    · rw [if_neg own] at same
      have number : table.id = left.id := congrArg Prod.fst same
      exact absurd designated (by rwa [Designates, ← number])
  rw [if_pos own] at same
  have entries : left.matcher.entries = table.matcher.entries.filter
      (fun ref => ¬ query.Selects (pipeline.ledger.entry ref)) :=
    (congrArg Prod.snd same).symm
  rw [Matcher.selected, entries]
  refine List.filter_eq_nil_iff.mpr fun ref member => ?_
  have unselected := (List.mem_filter.mp member).2
  rw [sheds.entries]
  simpa using unselected

/-- The number designates the same tables, and the query selects no entry of these. -/
theorem flowStats_eq_nil (sheds : pipeline.Sheds id query after)
    (found : pipeline.targets id = .ok targets) : after.flowStats id query = .ok [] := by
  have numbers : after.tables.map (·.id) = pipeline.tables.map (·.id) := by
    have parts := congrArg (List.map Prod.fst) sheds.contents
    rw [List.map_map, List.map_map] at parts
    refine parts.trans (List.map_congr_left fun table _ => ?_)
    by_cases designated : Designates id table
    · simp only [Function.comp, if_pos designated]
      rfl
    · simp only [Function.comp, if_neg designated]
      rfl
  have kept := targets_eq_ok_iff.mpr
    ⟨numbers ▸ (targets_eq_ok_iff.mp found).1, rfl⟩
  rw [flowStats_eq kept]
  congr 1
  refine List.flatMap_eq_nil_iff.mpr fun left member => ?_
  obtain ⟨listed, designated⟩ := List.mem_filter.mp member
  rw [Matcher.flowStats, sheds.selected_eq_nil listed (of_decide_eq_true designated),
    List.map_nil]

end Sheds

/--
In tables that can give up entries, the sums for a query are about as many entries as there
are replies, and add up the counters in these.  A removal returns the same number.  Then
the query selects nothing, and what it did not select is there as before.
-/
theorem statistics_remove (found : pipeline.targets id = .ok targets)
    (able : ∀ table ∈ targets, table.matcher.supportsRemoval = true) (query : Query) :
    ∃ replies sums after,
      pipeline.flowStats id query = .ok replies ∧
        pipeline.aggregate id query = .ok sums ∧
        sums.flows = replies.length ∧
        ((replies.map (·.counters.packets.toNat)).sum < 2 ^ 64 →
          sums.counters.packets.toNat = (replies.map (·.counters.packets.toNat)).sum) ∧
        ((replies.map (·.counters.bytes.toNat)).sum < 2 ^ 64 →
          sums.counters.bytes.toNat = (replies.map (·.counters.bytes.toNat)).sum) ∧
        pipeline.remove id query = (.ok replies.length, after) ∧
        after.flowStats id query = .ok [] ∧
        pipeline.Sheds id query after := by
  have listed := flowStats_eq found query
  obtain ⟨after, removed, sheds⟩ := remove_eq found able query
  refine ⟨_, _, after, listed, aggregate_of_flowStats listed, rfl, fun fits => ?_,
    fun fits => ?_, ?_, sheds.flowStats_eq_nil found, sheds⟩
  · rw [Counters.packets_sum, toNat_sum_of_fits]
    · rw [List.map_map, List.map_map]
      rfl
    · rw [List.map_map, List.map_map]
      exact fits
  · rw [Counters.bytes_sum, toNat_sum_of_fits]
    · rw [List.map_map, List.map_map]
      rfl
    · rw [List.map_map, List.map_map]
      exact fits
  · rw [removed, List.length_flatMap, List.length_flatMap]
    simp only [Matcher.flowStats, List.length_map]

/-- An entry in either of two tables, with different cookies, and a packet that hits one. -/
def stocked : Pipeline :=
  twoLists.run [.add ⟨0⟩ { cookie := 1 } false false, .add ⟨1⟩ { cookie := 2 } false false,
    .classify Packet.empty 0 64]

/-- The entries of the first cookie. -/
def firstCookie : Query where
  template := { cookie := 1, cookieMask := 3 }

theorem stocked_statistics :
    ofConfig { name := "p", tables := [.list, .list] } GroupSet.empty = .ok twoLists ∧
      stocked.targets TableId.all = .ok stocked.tables ∧
      (∀ table ∈ stocked.tables, table.matcher.supportsRemoval = true) ∧
      stocked.aggregate TableId.all firstCookie = .ok ⟨1, ⟨1, 64⟩⟩ ∧
      ∃ after, stocked.remove TableId.all firstCookie = (.ok 1, after) ∧
        after.flowStats TableId.all firstCookie = .ok [] ∧
        stocked.Sheds TableId.all firstCookie after := by
  have found : stocked.targets TableId.all = .ok stocked.tables := by decide
  have able : ∀ table ∈ stocked.tables, table.matcher.supportsRemoval = true := by decide
  have summed : stocked.aggregate TableId.all firstCookie = .ok ⟨1, ⟨1, 64⟩⟩ := by
    decide +kernel
  obtain ⟨replies, sums, after, -, added, flows, -, -, removed, nothing, sheds⟩ :=
    statistics_remove found able firstCookie
  obtain rfl := Except.ok.inj (summed.symm.trans added)
  have single : replies.length = 1 := flows.symm
  exact ⟨rfl, found, able, summed, after, single ▸ removed, nothing, sheds⟩

end Pipeline

end PacketClassifier
