import Mathlib.Algebra.Group.Action.Defs
import PacketClassifier.Proofs.Tally

/-!
# Sums over entries

A request for sums is answered by going through the entries, and once more through the
tables.  Sums add up like counters do, in any grouping, so either way the answer is the
number and the sum of what a request for each entry is answered with.
-/

namespace PacketClassifier

namespace Aggregate

variable {left right : Aggregate}

theorem ext (flows : left.flows = right.flows) (counters : left.counters = right.counters) :
    left = right := by
  cases left
  cases right
  exact congrArg₂ mk flows counters

instance : Zero Aggregate := ⟨{}⟩

@[simp]
theorem flows_add (left right : Aggregate) :
    (left + right).flows = left.flows + right.flows := rfl

@[simp]
theorem counters_add (left right : Aggregate) :
    (left + right).counters = left.counters + right.counters := rfl

instance : AddCommMonoid Aggregate where
  add_assoc _ _ _ := ext (add_assoc ..) (add_assoc ..)
  zero_add _ := ext (zero_add _) (zero_add _)
  add_zero _ := ext (add_zero _) (add_zero _)
  add_comm _ _ := ext (add_comm ..) (add_comm ..)
  nsmul := nsmulRec

/-- Sums are summed part by part. -/
theorem flows_sum (list : List Aggregate) : list.sum.flows = (list.map flows).sum := by
  induction list with
  | nil => rfl
  | cons first rest ih => simp [ih]

theorem counters_sum (list : List Aggregate) :
    list.sum.counters = (list.map counters).sum := by
  induction list with
  | nil => rfl
  | cons first rest ih => simp [ih]

/-- The order in which items are gone through does not count. -/
theorem foldl_add_eq_sum {α : Type} (part : α → Aggregate) (list : List α) :
    list.foldl (fun sums item => sums + part item) {} = (list.map part).sum := by
  rw [List.sum_eq_foldl, List.foldl_map]
  rfl

/-- Every entry counts as one flow. -/
theorem flows_ofEntries (entries : List Entry) :
    (ofEntries entries).flows = entries.length := by
  rw [ofEntries, foldl_add_eq_sum, flows_sum, List.map_map]
  have ones : (entries.map (fun _ => 1)).sum = entries.length := by
    rw [List.map_const', List.sum_replicate, smul_eq_mul, mul_one]
  exact ones

theorem counters_ofEntries (entries : List Entry) :
    (ofEntries entries).counters = (entries.map Entry.counters).sum := by
  rw [ofEntries, foldl_add_eq_sum, counters_sum, List.map_map]
  rfl

end Aggregate

/-! ## Sums and replies -/

variable (matcher : Matcher) (ledger : Ledger) (query : Query)

/-- The sums over some entries are about as many as there are replies. -/
theorem Matcher.flows_aggregate :
    (matcher.aggregate ledger query).flows = (matcher.flowStats ledger query).length := by
  rw [aggregate, Aggregate.flows_ofEntries, flowStats, List.length_map, List.length_map]

theorem Matcher.counters_aggregate :
    (matcher.aggregate ledger query).counters =
      ((matcher.flowStats ledger query).map (·.counters)).sum := by
  rw [aggregate, Aggregate.counters_ofEntries, flowStats, List.map_map, List.map_map]
  rfl

end PacketClassifier
