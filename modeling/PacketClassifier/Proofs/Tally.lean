import Mathlib.Algebra.BigOperators.Group.List.Basic
import Mathlib.Data.UInt
import PacketClassifier.Proofs.TableSteps

/-!
# Sums of counters

Counters add up like words do: in any order and grouping, and modulo the size of a word.
So what a tally has counted does not depend on how it is split into shards, and what a
list of entries has counted not on their order.
-/

namespace PacketClassifier

/-- Words add up like numbers do, modulo the size of a word. -/
theorem toNat_sum (list : List UInt64) :
    list.sum.toNat = (list.map UInt64.toNat).sum % 2 ^ 64 := by
  induction list with
  | nil => rfl
  | cons first rest ih =>
      rw [List.sum_cons, List.map_cons, List.sum_cons, UInt64.toNat_add, ih, Nat.add_mod_mod]

/-! ## Counters -/

namespace Counters

variable {left right : Counters}

theorem ext (packets : left.packets = right.packets) (bytes : left.bytes = right.bytes) :
    left = right := by
  cases left
  cases right
  exact congrArg₂ mk packets bytes

instance : Zero Counters := ⟨{}⟩

@[simp]
theorem packets_add (left right : Counters) :
    (left + right).packets = left.packets + right.packets := rfl

@[simp]
theorem bytes_add (left right : Counters) :
    (left + right).bytes = left.bytes + right.bytes := rfl

instance : AddCommMonoid Counters where
  add_assoc _ _ _ := ext (add_assoc ..) (add_assoc ..)
  zero_add _ := ext (zero_add _) (zero_add _)
  add_zero _ := ext (add_zero _) (add_zero _)
  add_comm _ _ := ext (add_comm ..) (add_comm ..)
  nsmul := nsmulRec

/-- Counters are summed part by part. -/
theorem packets_sum (list : List Counters) : list.sum.packets = (list.map packets).sum := by
  induction list with
  | nil => rfl
  | cons first rest ih => simp [ih]

theorem bytes_sum (list : List Counters) : list.sum.bytes = (list.map bytes).sum := by
  induction list with
  | nil => rfl
  | cons first rest ih => simp [ih]

end Counters

/-! ## Tallies -/

namespace Tally

variable {tally : Tally}

theorem counters_eq (tally : Tally) :
    tally.counters = tally.base + (tally.shards.map Prod.snd).sum := by
  have sums : ∀ (list : List Counters) (base : Counters),
      list.foldl (· + ·) base = base + list.sum := by
    intro list
    induction list with
    | nil => simp
    | cons first rest ih => simp [ih, add_assoc]
  exact sums _ _

/-- What is added to the shard of a thread is added to the sum, whoever else has shards. -/
theorem sum_addToShard (thread : ThreadId) (counters : Counters)
    (shards : List (ThreadId × Counters)) :
    ((addToShard thread counters shards).map Prod.snd).sum =
      (shards.map Prod.snd).sum + counters := by
  induction shards with
  | nil => simp [addToShard]
  | cons first rest ih =>
      rw [addToShard]
      split
      · simp [add_right_comm]
      · simp [ih, add_assoc]

/-- A packet counts once, on whatever thread. -/
@[simp]
theorem counters_hit (tally : Tally) (thread : ThreadId) (bytes : UInt64) :
    (tally.hit thread bytes).counters = tally.counters + ⟨1, bytes⟩ := by
  rw [counters_eq, counters_eq, hit, sum_addToShard, add_assoc]

@[simp]
theorem counters_fold (tally : Tally) (counters : Counters) :
    (tally.fold counters).counters = tally.counters + counters := by
  rw [counters_eq, counters_eq, fold, add_right_comm]

/-- No counters are left by a reset. -/
@[simp]
theorem counters_reset (tally : Tally) : tally.reset.counters = {} := by
  have nothing : ∀ counters ∈ tally.reset.shards.map Prod.snd, counters = 0 := by
    intro counters member
    simp only [reset, List.map_map, List.mem_map] at member
    obtain ⟨shard, -, rfl⟩ := member
    rfl
  rw [counters_eq, List.sum_eq_zero nothing, add_zero]
  rfl

end Tally

/-! ## Lists of entries -/

namespace Ledger

variable {ledger last : Ledger} {refs others : List EntryRef}

/-- What entries have counted together. -/
def total (ledger : Ledger) (refs : List EntryRef) : Counters :=
  (refs.map (fun ref => (ledger.entry ref).counters)).sum

@[simp]
theorem total_nil (ledger : Ledger) : ledger.total [] = 0 := rfl

@[simp]
theorem total_cons (ledger : Ledger) (ref : EntryRef) (refs : List EntryRef) :
    ledger.total (ref :: refs) = (ledger.entry ref).counters + ledger.total refs := by
  simp [total]

@[simp]
theorem total_append (ledger : Ledger) (refs others : List EntryRef) :
    ledger.total (refs ++ others) = ledger.total refs + ledger.total others := by
  simp [total]

theorem total_perm (ledger : Ledger) (same : refs.Perm others) :
    ledger.total refs = ledger.total others :=
  (same.map _).sum_eq

/-- Entries whose tallies have not changed have counted what they had. -/
theorem total_congr
    (same : ∀ ref ∈ refs, (last.state ref.id).tally = (ledger.state ref.id).tally) :
    last.total refs = ledger.total refs := by
  unfold total
  congr 1
  exact List.map_congr_left fun ref member => congrArg Tally.counters (same ref member)

/-- What is counted on one entry is counted once, as no other entry has its identity. -/
theorem total_update (tracks : ledger.Tracks refs) {ref : EntryRef} (member : ref ∈ refs)
    {change : EntryState → EntryState} {extra : Counters}
    (adds : ∀ state, (change state).tally.counters = state.tally.counters + extra) :
    (ledger.update ref change).total refs = ledger.total refs + extra := by
  have parts := List.perm_cons_erase member
  have apart := (tracks.perm parts).apart
  have others : (ledger.update ref change).total (refs.erase ref) =
      ledger.total (refs.erase ref) := by
    refine total_congr fun other listed => ?_
    have different : other.id ≠ ref.id := fun same =>
      (List.nodup_cons.mp apart).1 (List.mem_map.mpr ⟨other, listed, same⟩)
    rw [state_update_of_ne different]
  have changed : ((ledger.update ref change).entry ref).counters =
      (ledger.entry ref).counters + extra := by
    show ((ledger.update ref change).state ref.id).tally.counters = _
    rw [state_update_self (tracks.known ref member), adds]
    rfl
  rw [total_perm _ parts, total_perm _ parts, total_cons, total_cons, others, changed,
    add_right_comm]

/-- What those that stay have counted is in the total before and after a turnover. -/
theorem total_turnover {before after gone : List EntryRef} {joined : Option EntryRef}
    (turnover : Turnover before after gone joined)
    (same : ∀ ref ∈ before, (last.state ref.id).tally = (ledger.state ref.id).tally) :
    ∃ rest, ledger.total before = last.total gone + rest ∧
      last.total after = last.total joined.toList + rest := by
  obtain ⟨kept, parts, stayed⟩ := turnover
  refine ⟨last.total kept, ?_, ?_⟩
  · rw [← total_congr same, total_perm last parts, total_append]
  · rw [total_perm last stayed, total_append]

end Ledger

end PacketClassifier
