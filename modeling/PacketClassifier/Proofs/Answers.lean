import PacketClassifier.Proofs.PriorityOrder

/-!
# The answers to a search

A search for the entry that a packet hits has the right answer if that is one of the
highest priority among the entries that the packet satisfies.  Entries of the same
priority may both be right answers, but no two priorities are.
-/

namespace PacketClassifier

/-- The result of a search is a right one, given the entries installed. -/
def Answers (installed : List EntryRef) (packet : Packet) :
    Option EntryRef → Prop
  | none => ∀ entry ∈ installed, ¬ entry.rule.matchSet.Admits packet
  | some best =>
      best ∈ installed ∧ best.rule.matchSet.Admits packet ∧
        ∀ entry ∈ installed, entry.rule.matchSet.Admits packet →
          entry.rule.priority ≤ best.rule.priority

namespace Answers

variable {installed others : List EntryRef} {packet : Packet}
  {result left right : Option EntryRef}

theorem perm (answers : Answers installed packet result)
    (same : installed.Perm others) : Answers others packet result := by
  cases result with
  | none =>
      intro entry member
      exact answers entry (same.mem_iff.mpr member)
  | some best =>
      rcases answers with ⟨member, satisfied, highest⟩
      refine ⟨same.mem_iff.mp member, satisfied, ?_⟩
      intro entry listed
      exact highest entry (same.mem_iff.mpr listed)

theorem eq_none_iff (answers : Answers installed packet result) :
    result = none ↔ ∀ entry ∈ installed, ¬ entry.rule.matchSet.Admits packet := by
  constructor
  · rintro rfl
    exact answers
  · intro unsatisfied
    cases result with
    | none => rfl
    | some best => exact absurd answers.2.1 (unsatisfied best answers.1)

/-- Two right answers are of the same priority. -/
theorem priority_eq (first : Answers installed packet left)
    (second : Answers installed packet right) :
    left.map (·.rule.priority) = right.map (·.rule.priority) := by
  cases left with
  | none => rw [second.eq_none_iff.mpr first]
  | some best =>
      cases right with
      | none => exact absurd first.2.1 (second best first.1)
      | some other =>
          have below := second.2.2 best first.1 first.2.1
          have above := first.2.2 other second.1 second.2.1
          exact congrArg some (UInt32.le_antisymm below above)

end Answers

/-- In a list by priority the first entry that a packet satisfies is a right answer. -/
theorem PriorityList.find?_answers {list : PriorityList}
    (sorted : sortedByPriority list.entries = true) (packet : Packet) :
    Answers list.entries packet (list.find? packet) := by
  cases found : list.find? packet with
  | none =>
      intro entry member satisfied
      exact List.find?_eq_none.mp found entry member (decide_eq_true satisfied)
  | some best =>
      obtain ⟨satisfied, before, behind, split, earlier⟩ :=
        List.find?_eq_some_iff_append.mp found
      have member := List.mem_of_find?_eq_some found
      refine ⟨member, of_decide_eq_true satisfied, ?_⟩
      intro entry listed admitted
      rw [split] at listed sorted
      rcases List.mem_append.mp listed with skipped | rest
      · have rejected := earlier entry skipped
        simp [admitted] at rejected
      · exact priority_le_head (sortedByPriority_iff.mpr
          (List.pairwise_append.mp (sortedByPriority_iff.mp sorted)).2.1) rest

end PacketClassifier
