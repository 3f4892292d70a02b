import PacketClassifier.Proofs.Trie.Reading

/-!
# Checks without fuel

A check counts the nodes that it reaches and stops when there are more of them than the
arena holds.  So it comes to an end on whatever links there are, and fuel for one node more
than there are is no bound of its own.  This module states the check without fuel, by
recursion on the number of nodes that may still be reached, and shows that it makes no
difference.  What it accepts is a tree that is sorted and well placed.
-/

namespace PacketClassifier

open Trie

/-! ## The check of one node -/

/-- The first flaw of the entries and the cache of a node, if there is one. -/
def TrieNode.flaw? (node : TrieNode) (path : List Match) (below : Option UInt32) :
    Option TrieFlaw :=
  if sortedByPriority node.entries then
    match node.entries.find? (fun entry => ¬ BelongsUnder entry path) with
    | some entry => some (.misplacedEntry node.stem entry)
    | none =>
        if node.highest = higher (topPriority node.entries) below then none
        else some (.wrongCache node.stem node.highest
          (higher (topPriority node.entries) below))
  else
    some (.unsortedEntries node.stem)

theorem TrieNode.flaw?_eq_none_iff {node : TrieNode} {path : List Match}
    {below : Option UInt32} :
    node.flaw? path below = none ↔
      sortedByPriority node.entries = true ∧
        (∀ entry ∈ node.entries, BelongsUnder entry path) ∧
        node.highest = higher (topPriority node.entries) below := by
  unfold flaw?
  by_cases sorted : sortedByPriority node.entries = true
  · rw [if_pos sorted]
    cases found : node.entries.find? (fun entry => ¬ BelongsUnder entry path) with
    | some entry =>
        have misplaced := List.find?_some found
        have member := List.mem_of_find?_eq_some found
        simp only [reduceCtorEq, sorted, true_and, false_iff, not_and]
        exact fun placed => absurd (placed entry member) (by simpa using misplaced)
    | none =>
        have placed : ∀ entry ∈ node.entries, BelongsUnder entry path := by
          simpa using List.find?_eq_none.mp found
        simp only [ite_eq_left_iff, reduceCtorEq, imp_false, Decidable.not_not]
        exact ⟨fun cached => ⟨sorted, placed, cached⟩, fun parts => parts.2.2⟩
  · simp [sorted]

theorem TrieNode.flaw?_ne_missingNode (node : TrieNode) (path : List Match)
    (below : Option UInt32) (id : NodeId) :
    node.flaw? path below ≠ some (.missingNode id) := by
  unfold flaw?
  split
  · split
    · simp
    · split <;> simp
  · simp

namespace Trie

variable {trie : Trie} {cursor owner : Option NodeId} {path : List Match}
  {stored reached fuel : Nat}

/--
Check a trie from a node on.  The nodes reached are counted, and there are as many at the
end as at the start, or more.
-/
def survey (trie : Trie) (cursor owner : Option NodeId) (path : List Match)
    (stored reached : Nat) :
    Except TrieFlaw {census : Census // reached ≤ census.reached} :=
  match cursor with
  | none => .ok ⟨⟨none, stored, reached⟩, Nat.le_refl _⟩
  | some id =>
      match trie.node? id with
      | none => .error (.missingNode id)
      | some node =>
          if room : reached + 1 ≤ trie.nodes.size then
            if node.owner = owner then
              match survey trie node.inner (some id) (path ++ [node.stem]) stored
                  (reached + 1) with
              | .error flaw => .error flaw
              | .ok ⟨below, more⟩ =>
                  match node.flaw? (path ++ [node.stem]) below.highest with
                  | some flaw => .error flaw
                  | none =>
                      match survey trie node.next owner path
                          (below.stored + node.entries.length) below.reached with
                      | .error flaw => .error flaw
                      | .ok ⟨rest, further⟩ =>
                          .ok ⟨{ rest with highest := higher node.highest rest.highest },
                            by simp only; omega⟩
            else
              .error (.wrongOwner node.stem node.owner owner)
          else
            .error .cycle
termination_by trie.nodes.size - reached

variable {census : Census}

/-- No more nodes are counted than there are. -/
theorem survey_reached_le (within : reached ≤ trie.nodes.size)
    (accepted : (trie.survey cursor owner path stored reached).map Subtype.val =
      .ok census) :
    census.reached ≤ trie.nodes.size := by
  fun_induction survey trie cursor owner path stored reached generalizing census with
  | case1 =>
      obtain rfl := Except.ok.inj accepted
      exact within
  | case6 path stored reached id node read room below more inner sound rest further next
      innerIH nextIH =>
      obtain rfl := Except.ok.inj accepted
      have counted : below.reached ≤ trie.nodes.size := innerIH room (by rw [inner]; rfl)
      have all : rest.reached ≤ trie.nodes.size := nextIH counted (by rw [next]; rfl)
      exact all
  | _ => cases accepted

/-- A check of a node that is there, and of the chains that the node leads to. -/
theorem checkFrom_some {id : NodeId} {node : TrieNode} (read : trie.node? id = some node)
    (fueled : 0 < fuel) :
    trie.checkFrom fuel (some id) owner path stored reached =
      if reached + 1 ≤ trie.nodes.size then
        if node.owner = owner then do
          let below ← trie.checkFrom (fuel - 1) node.inner (some id) (path ++ [node.stem]) stored
            (reached + 1)
          (node.flaw? (path ++ [node.stem]) below.highest).elim
            (do
              let rest ← trie.checkFrom (fuel - 1) node.next owner path
                (below.stored + node.entries.length) below.reached
              return { rest with highest := higher node.highest rest.highest })
            Except.error
        else
          .error (.wrongOwner node.stem node.owner owner)
      else
        .error .cycle := by
  obtain ⟨fuel, rfl⟩ : ∃ less, fuel = less + 1 := ⟨fuel - 1, by omega⟩
  rw [Nat.add_sub_cancel]
  simp only [checkFrom, read, require]
  by_cases room : reached + 1 ≤ trie.nodes.size
  · by_cases owned : node.owner = owner
    · simp only [room, owned, decide_true, if_true, bind, Except.bind]
      cases trie.checkFrom fuel node.inner (some id) (path ++ [node.stem]) stored
        (reached + 1) with
      | error flaw => rfl
      | ok below =>
          unfold TrieNode.flaw? topPriority
          by_cases sorted : sortedByPriority node.entries = true
          · simp only [sorted, if_true]
            cases node.entries.find? (fun entry =>
                ¬ BelongsUnder entry (path ++ [node.stem])) with
            | some entry => rfl
            | none =>
                by_cases cached : node.highest = higher
                    (node.entries.head?.map (·.rule.priority)) below.highest
                · simp only [cached, decide_true, if_true]
                  rfl
                · simp only [cached, decide_false, if_false]
                  rfl
          · simp only [sorted]
            rfl
    · simp only [room, owned, decide_true, decide_false, if_true, if_false]
      rfl
  · simp only [room, decide_false, if_false]
    rfl

/-- Fuel for one node more than may still be reached is enough. -/
theorem checkFrom_eq_survey (within : reached ≤ trie.nodes.size)
    (enough : trie.nodes.size < fuel + reached) :
    trie.checkFrom fuel cursor owner path stored reached =
      (trie.survey cursor owner path stored reached).map Subtype.val := by
  fun_induction survey trie cursor owner path stored reached generalizing fuel with
  | case1 => cases fuel <;> rfl
  | case2 owner path stored reached id missing =>
      obtain ⟨fuel, rfl⟩ : ∃ less, fuel = less + 1 := ⟨fuel - 1, by omega⟩
      simp only [checkFrom, missing]
      rfl
  | case3 path stored reached id node read room flaw inner innerIH =>
      rw [checkFrom_some read (by omega), if_pos room, if_pos rfl, innerIH room (by omega), inner]
      rfl
  | case4 path stored reached id node read room below more inner flaw flawed innerIH =>
      rw [checkFrom_some read (by omega), if_pos room, if_pos rfl, innerIH room (by omega), inner]
      simp only [Except.map, bind, Except.bind, flawed, Option.elim]
  | case5 path stored reached id node read room below more inner sound flaw next innerIH
      nextIH =>
      have counted : below.reached ≤ trie.nodes.size :=
        survey_reached_le room (by rw [inner]; rfl)
      rw [checkFrom_some read (by omega), if_pos room, if_pos rfl, innerIH room (by omega), inner]
      simp only [Except.map, bind, Except.bind, sound, Option.elim]
      rw [nextIH counted (by omega), next]
      rfl
  | case6 path stored reached id node read room below more inner sound rest further next
      innerIH nextIH =>
      have counted : below.reached ≤ trie.nodes.size :=
        survey_reached_le room (by rw [inner]; rfl)
      rw [checkFrom_some read (by omega), if_pos room, if_pos rfl, innerIH room (by omega), inner]
      simp only [Except.map, bind, Except.bind, sound, Option.elim]
      rw [nextIH counted (by omega), next]
      rfl
  | case7 owner path stored reached id node read room foreign =>
      rw [checkFrom_some read (by omega), if_pos room, if_neg foreign]
      rfl
  | case8 owner path stored reached id node read full =>
      rw [checkFrom_some read (by omega), if_neg full]
      rfl

/-- What is accepted is a tree that is sorted and well placed, with the right count. -/
theorem exists_chain_of_survey
    (accepted : (trie.survey cursor owner path stored reached).map Subtype.val =
      .ok census) :
    ∃ chain : Chain, chain.head? = cursor ∧ trie.Reads (chain.cells owner) ∧
      chain.Sorted ∧ chain.WellPlaced path ∧
      census = ⟨chain.highest, stored + chain.entries.length, reached + chain.size⟩ := by
  fun_induction survey trie cursor owner path stored reached generalizing census with
  | case1 =>
      obtain rfl := Except.ok.inj accepted
      exact ⟨.empty, rfl, fun _ member => absurd member List.not_mem_nil, trivial, trivial, rfl⟩
  | case6 path stored reached id node read room below more inner sound rest further next
      innerIH nextIH =>
      obtain rfl := Except.ok.inj accepted
      obtain ⟨innerChain, innerStart, innerReads, innerSorted, innerPlaced, rfl⟩ :=
        innerIH (by rw [inner]; rfl)
      obtain ⟨nextChain, nextStart, nextReads, nextSorted, nextPlaced, rfl⟩ :=
        nextIH (by rw [next]; rfl)
      obtain ⟨sorted, placed, cached⟩ := TrieNode.flaw?_eq_none_iff.mp sound
      refine ⟨.node id node.stem node.entries innerChain nextChain, rfl, ?_,
        ⟨sorted, innerSorted, nextSorted⟩, ⟨placed, innerPlaced, nextPlaced⟩, ?_⟩
      · intro cell member
        rcases List.mem_cons.mp member with rfl | below
        · rw [innerStart, nextStart, ← cached]
          exact read
        · rcases List.mem_append.mp below with inside | behind
          · exact innerReads cell inside
          · exact nextReads cell behind
      · simp only [Chain.highest, Chain.entries, Chain.size, List.length_append, cached,
          Census.mk.injEq, true_and]
        omega
  | _ => cases accepted

/-! ## Nodes that are missing -/

/-- Every link leads to a node of the arena, or nowhere. -/
def LinksInside (trie : Trie) : Prop :=
  (∀ id ∈ trie.root, id.index < trie.nodes.size) ∧
    ∀ node ∈ trie.nodes, (∀ id ∈ node.inner, id.index < trie.nodes.size) ∧
      ∀ id ∈ node.next, id.index < trie.nodes.size

instance (trie : Trie) : Decidable trie.LinksInside :=
  inferInstanceAs (Decidable (_ ∧ _))

/-- Where links lead to nodes, a check does not come across one that is missing. -/
theorem survey_ne_missingNode (inside : trie.LinksInside)
    (start : ∀ id ∈ cursor, id.index < trie.nodes.size) (absent : NodeId) :
    trie.survey cursor owner path stored reached ≠ .error (.missingNode absent) := by
  -- what a node that is read leads to is inside as well
  have further : ∀ {id : NodeId} {node : TrieNode}, trie.node? id = some node →
      (∀ below ∈ node.inner, below.index < trie.nodes.size) ∧
        ∀ next ∈ node.next, next.index < trie.nodes.size :=
    fun read => inside.2 _ (Array.mem_of_getElem? read)
  fun_induction survey trie cursor owner path stored reached with
  | case2 owner path stored reached id missing =>
      have outside := Array.getElem?_eq_none_iff.mp missing
      have := start id rfl
      omega
  | case3 path stored reached id node read room flaw inner innerIH =>
      intro same
      obtain rfl := Except.error.inj same
      exact innerIH (further read).1 inner
  | case4 path stored reached id node read room below more inner flaw flawed innerIH =>
      intro same
      obtain rfl := Except.error.inj same
      exact node.flaw?_ne_missingNode _ _ _ flawed
  | case5 path stored reached id node read room below more inner sound flaw next innerIH
      nextIH =>
      intro same
      obtain rfl := Except.error.inj same
      exact nextIH (further read).2 next
  | _ => simp

end Trie

end PacketClassifier
