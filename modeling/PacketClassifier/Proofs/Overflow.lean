import PacketClassifier.Proofs.Sharding

/-!
# Readings that mind overflow

A reading that lets no sum wrap around gives the same as one that does, or nothing if the base
and the shards are together too large for a word.  As long as what was counted since the last
reset fits into words, it gives just that.  Beyond that the threads count, as a shard that has
wrapped around by itself is small again.
-/

namespace PacketClassifier

/-! ## Sums that fit -/

namespace Counters

variable {left right : Counters} {rest : List Counters}

/-- The pairs of counters add up to no more than fits into words. -/
def Fit (list : List Counters) : Prop :=
  (list.map (·.packets.toNat)).sum < 2 ^ 64 ∧ (list.map (·.bytes.toNat)).sum < 2 ^ 64

instance (list : List Counters) : Decidable (Fit list) :=
  inferInstanceAs (Decidable (_ ∧ _))

theorem fit_singleton (pair : Counters) : Fit [pair] := by
  simpa [Fit] using ⟨pair.packets.toNat_lt, pair.bytes.toNat_lt⟩

theorem fit_pair_iff : Fit [left, right] ↔
    left.packets.toNat + right.packets.toNat < 2 ^ 64 ∧
      left.bytes.toNat + right.bytes.toNat < 2 ^ 64 := by
  simp [Fit]

theorem add?_eq (left right : Counters) :
    left.add? right = if Fit [left, right] then some (left + right) else none :=
  if_congr fit_pair_iff.symm rfl rfl

theorem Fit.front (fit : Fit (left :: right :: rest)) : Fit [left, right] := by
  simp only [Fit, List.map_cons, List.sum_cons] at fit
  rw [fit_pair_iff]
  omega

/-- A sum that fits stands for its two parts. -/
theorem Fit.join_iff (fit : Fit [left, right]) :
    Fit ((left + right) :: rest) ↔ Fit (left :: right :: rest) := by
  obtain ⟨packets, bytes⟩ := fit_pair_iff.mp fit
  simp only [Fit, List.map_cons, List.sum_cons, packets_add, bytes_add, UInt64.toNat_add,
    Nat.mod_eq_of_lt packets, Nat.mod_eq_of_lt bytes, Nat.add_assoc]

/-- Sums that are minded one by one come out exactly if all that is summed fits. -/
theorem foldlM_add? (base : Counters) (list : List Counters) :
    list.foldlM add? base = if Fit (base :: list) then some (base + list.sum) else none := by
  induction list generalizing base with
  | nil =>
      rw [if_pos (fit_singleton base), List.sum_nil, add_zero]
      rfl
  | cons first rest ih =>
      rw [List.foldlM_cons, add?_eq]
      by_cases fit : Fit [base, first]
      · rw [if_pos fit, Option.bind_eq_bind, Option.bind_some, ih]
        simp only [fit.join_iff, List.sum_cons, add_assoc]
      · rw [if_neg fit, if_neg (mt Fit.front fit)]
        rfl

end Counters

namespace Tally

/-- The base and the shards. -/
def parts (tally : Tally) : List Counters :=
  tally.base :: tally.shards.map Prod.snd

/-- A reading that minds overflow gives the same as one that does not, or nothing. -/
theorem counters?_eq (tally : Tally) :
    tally.counters? = if Counters.Fit tally.parts then some tally.counters else none := by
  rw [counters?, Counters.foldlM_add?, counters_eq]
  rfl

/-! ## What the parts add up to -/

section Measures

variable {part : Counters → Nat}
  (add : ∀ left right, part (left + right) ≤ part left + part right)
include add

theorem sum_addToShard_le (thread : ThreadId) (counters : Counters)
    (shards : List (ThreadId × Counters)) :
    ((addToShard thread counters shards).map (part ·.2)).sum ≤
      (shards.map (part ·.2)).sum + part counters := by
  induction shards with
  | nil => simp [addToShard]
  | cons first rest ih =>
      have grown := add first.2 counters
      rw [addToShard]
      split
      · simp only [List.map_cons, List.sum_cons]
        omega
      · simp only [List.map_cons, List.sum_cons]
        omega

variable (zero : part 0 = 0)
include zero

/-- A request adds to the parts no more than what it is about, and a reset empties them. -/
theorem sum_parts_after_le (tally : Tally) (thread : ThreadId) (request : Request) :
    ((tally.after thread request).parts.map part).sum ≤
      if request = .reset then 0 else (tally.parts.map part).sum + part request.gain := by
  simp only [parts, List.map_cons, List.map_map, Function.comp_def, List.sum_cons]
  cases request with
  | hit bytes =>
      have grown := sum_addToShard_le add thread ⟨1, bytes⟩ tally.shards
      simp only [after, hit, Request.gain, reduceCtorEq, if_false]
      omega
  | fold counters =>
      have grown := add tally.base counters
      simp only [after, fold, Request.gain, reduceCtorEq, if_false]
      omega
  | reset =>
      simp only [after, reset, List.map_map, Function.comp_def, if_true]
      show part 0 + (tally.shards.map fun _ => part 0).sum ≤ 0
      simp [zero]

/-- The parts never add up to more than what was counted since the last reset. -/
theorem sum_parts_run_le (requests : List (ThreadId × Request)) :
    ((run {} requests).parts.map part).sum ≤
      ((sinceReset (requests.map Prod.snd)).map (part ·.gain)).sum := by
  induction requests using List.reverseRecOn with
  | nil =>
      show part 0 + 0 ≤ 0
      rw [zero]
  | append_singleton requests last ih =>
      have grown := sum_parts_after_le add zero (run {} requests) last.1 last.2
      rw [run_concat, List.map_append, List.map_singleton, sinceReset_concat]
      refine grown.trans ?_
      split
      · rfl
      · rw [List.map_append, List.sum_append, List.map_singleton, List.sum_singleton]
        omega

end Measures

/--
As long as the packets and the bytes since the last reset fit into words, a reading that minds
overflow gives their numbers, on whichever threads they were counted.
-/
theorem counters?_run (requests : List (ThreadId × Request))
    (packets : ((sinceReset (requests.map Prod.snd)).map Request.packets).sum < 2 ^ 64)
    (bytes : ((sinceReset (requests.map Prod.snd)).map Request.bytes).sum < 2 ^ 64) :
    ∃ counters, (run {} requests).counters? = some counters ∧
      counters.packets.toNat =
        ((sinceReset (requests.map Prod.snd)).map Request.packets).sum ∧
      counters.bytes.toNat =
        ((sinceReset (requests.map Prod.snd)).map Request.bytes).sum := by
  -- A part may wrap around, so it holds at most what it was asked to count.
  have fit : Counters.Fit (run {} requests).parts := by
    constructor
    · refine Nat.lt_of_le_of_lt (sum_parts_run_le (fun left right => ?_) rfl requests) ?_
      · rw [Counters.packets_add, UInt64.toNat_add]
        exact Nat.mod_le ..
      · simpa only [Request.packets_gain] using packets
    · refine Nat.lt_of_le_of_lt (sum_parts_run_le (fun left right => ?_) rfl requests) ?_
      · rw [Counters.bytes_add, UInt64.toNat_add]
        exact Nat.mod_le ..
      · simpa only [Request.bytes_gain] using bytes
  refine ⟨_, (counters?_eq _).trans (if_pos fit), ?_, ?_⟩
  · rw [counters_run_new, Counters.packets_run_zero, Nat.mod_eq_of_lt packets]
  · rw [counters_run_new, Counters.bytes_run_zero, Nat.mod_eq_of_lt bytes]

/-- Beyond that it makes a difference on which threads packets were counted. -/
example :
    (run {} [(0, .hit 18446744073709551615), (0, .hit 1)]).counters? = some ⟨2, 0⟩ ∧
      (run {} [(0, .hit 18446744073709551615), (1, .hit 1)]).counters? = none := by
  decide

end Tally

end PacketClassifier
