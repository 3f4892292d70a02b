import PacketClassifier.Proofs.Trie.Context

/-!
# Raising the cached priorities

When an entry arrives in the hole of a context, the caches of the owners above have
to count in its priority.  Raising them from the owner of the hole up does that, and
may stop at the first owner that promises as much already: the caches above are
exact, so they promise as much too.
-/

namespace PacketClassifier.Trie

variable {trie : Trie} {context : Context} {head : Option NodeId}
  {highest : Option UInt32} {others : List Cell}

/--
Raise the cache of one node, and then those above it.  The node is one of the others
and counts for `highest` in the caches above.
-/
theorem Opened.raiseFrom_cell {id : NodeId} {node : TrieNode}
    (priority : UInt32) (fuel : Nat)
    (opened : trie.Opened context head highest ((id, node) :: others))
    (counted : ∃ siblings, highest = higher node.highest siblings)
    (owner : node.owner = context.owner)
    (above : ∀ {raised : Trie} {cells : List Cell},
      raised.Opened context head highest cells →
        (raiseFrom priority fuel context.owner raised).Opened context head
          (higher highest (some priority)) cells) :
    (raiseFrom priority (fuel + 1) (some id) trie).Opened context head
      (higher highest (some priority))
      ((id, { node with highest := higher node.highest (some priority) }) ::
        others) := by
  have read := opened.node? List.mem_cons_self
  simp only at read
  simp only [raiseFrom, read]
  split
  · rename_i reached
    obtain ⟨siblings, rfl⟩ := counted
    have covered : (higher node.highest siblings).any (priority ≤ ·) = true := by
      rw [any_higher, reached, Bool.true_or]
    rw [higher_of_reached reached, higher_of_reached covered]
    exact opened
  · rename_i unreached
    have modified := above
      (opened.modifyNode (fun node => { node with highest := some priority }))
    rw [higher_of_not_reached unreached]
    rwa [← owner] at modified

/-- Raising the caches from the owner of the hole up counts in a priority there. -/
theorem Opened.raiseFrom {priority : UInt32} {fuel : Nat}
    (opened : trie.Opened context head highest others)
    (enough : context.depth ≤ fuel) :
    (raiseFrom priority fuel context.owner trie).Opened context head
      (higher highest (some priority)) others := by
  induction context generalizing trie head highest others fuel with
  | root =>
      have unchanged : Trie.raiseFrom priority fuel none trie = trie := by
        cases fuel <;> rfl
      rw [Context.owner, unchanged]
      exact ⟨opened.root, opened.holds⟩
  | inside id stem own next outer ih =>
      cases fuel with
      | zero => simp [Context.depth] at enough
      | succ fuel =>
          have enoughAbove : outer.depth ≤ fuel := by
            simpa [Context.depth] using enough
          have raised := (opened_inside_iff.mp opened).raiseFrom_cell
            priority fuel ⟨next.highest, rfl⟩ rfl
            (fun above => ih above enoughAbove)
          rw [opened_inside_iff, ← higher_assoc, higher_right_comm]
          exact raised
  | behind id stem own inner outer ih =>
      have enoughAbove : outer.depth ≤ fuel := by
        simp only [Context.depth] at enough
        omega
      rw [opened_behind_iff, ← higher_assoc]
      exact ih (opened_behind_iff.mp opened) enoughAbove

theorem Opened.raise (opened : trie.Opened context head highest others)
    (priority : UInt32) :
    (trie.raise context.owner priority).Opened context head
      (higher highest (some priority)) others :=
  opened.raiseFrom (Nat.le_succ_of_le opened.depth_le)

end PacketClassifier.Trie
