import PacketClassifier.Proofs.PriorityOrder
import PacketClassifier.Trie.Consistency
import PacketClassifier.Trie.Insert

/-!
# Chains as trees

The chain that starts at a node of a trie, with the inner chains of its nodes and
what is below them, is a binary tree: a node has an inner chain and a chain that
follows it.  A tree determines what the arena has to hold, node by node, owners and
cached priorities included, so an arena that represents a tree has exact caches and
the right owners.
-/

namespace PacketClassifier

namespace Trie

/-! ## The higher of two priorities -/

@[simp]
theorem higher_none (left : Option UInt32) : higher left none = left := by
  cases left <;> rfl

@[simp]
theorem none_higher (right : Option UInt32) : higher none right = right := by
  cases right <;> rfl

theorem higher_comm (left right : Option UInt32) :
    higher left right = higher right left := by
  cases left <;> cases right <;> grind [higher]

theorem higher_assoc (first second third : Option UInt32) :
    higher (higher first second) third = higher first (higher second third) := by
  cases first <;> cases second <;> cases third <;> grind [higher]

theorem higher_right_comm (first second third : Option UInt32) :
    higher (higher first second) third = higher (higher first third) second := by
  rw [higher_assoc, higher_comm second, ← higher_assoc]

theorem any_higher (priority : UInt32) (left right : Option UInt32) :
    (higher left right).any (priority ≤ ·) =
      (left.any (priority ≤ ·) || right.any (priority ≤ ·)) := by
  cases left <;> cases right <;> grind [higher]

/-- A priority that is reached already changes nothing. -/
theorem higher_of_reached {priority : UInt32} {bound : Option UInt32}
    (reached : bound.any (priority ≤ ·) = true) :
    higher bound (some priority) = bound := by
  cases bound <;> grind [higher]

/-- A priority that is not reached yet replaces what was the highest. -/
theorem higher_of_not_reached {priority : UInt32} {bound : Option UInt32}
    (unreached : ¬ bound.any (priority ≤ ·) = true) :
    higher bound (some priority) = some priority := by
  cases bound <;> grind [higher]

end Trie

open Trie

/-- The priority that a list of entries leads with. -/
def topPriority (entries : List EntryRef) : Option UInt32 :=
  entries.head?.map (·.rule.priority)

theorem topPriority_insert {entries : List EntryRef}
    (sorted : sortedByPriority entries = true) (entry : EntryRef) :
    topPriority (insertByPriority entries entry) =
      higher (topPriority entries) (some entry.rule.priority) := by
  unfold topPriority
  rw [head?_insertByPriority sorted]
  cases entries with
  | nil => rfl
  | cons first rest =>
      by_cases reached : entry.rule.priority ≤ first.rule.priority
      · have covered : (some first.rule.priority).any
            (entry.rule.priority ≤ ·) = true := by simpa using reached
        simpa [reached] using (higher_of_reached covered).symm
      · have uncovered : ¬ (some first.rule.priority).any
            (entry.rule.priority ≤ ·) = true := by simpa using reached
        simpa [reached] using (higher_of_not_reached uncovered).symm

/-- A node of the arena with its number. -/
abbrev Cell := NodeId × TrieNode

/-- A chain of nodes, with the inner chains of its nodes. -/
inductive Chain where
  | empty
  | node (id : NodeId) (stem : Match) (own : List EntryRef) (inner next : Chain)
deriving DecidableEq

namespace Chain

def head? : Chain → Option NodeId
  | empty => none
  | node id .. => some id

@[simp]
theorem head?_empty : empty.head? = none :=
  rfl

@[simp]
theorem head?_node (id : NodeId) (stem : Match) (own : List EntryRef)
    (inner next : Chain) : (node id stem own inner next).head? = some id :=
  rfl

def size : Chain → Nat
  | empty => 0
  | node _ _ _ inner next => inner.size + next.size + 1

/-- The entries of all nodes, depth first. -/
def entries : Chain → List EntryRef
  | empty => []
  | node _ _ own inner next => own ++ inner.entries ++ next.entries

/-- The highest priority that the nodes of a chain cache. -/
def highest : Chain → Option UInt32
  | empty => none
  | node _ _ own inner next =>
      higher (higher (topPriority own) inner.highest) next.highest

/-- What the arena holds for a chain whose nodes have a given owner. -/
def cells (owner : Option NodeId) : Chain → List Cell
  | empty => []
  | node id stem own inner next =>
      (id, {
        stem, entries := own, inner := inner.head?, next := next.head?, owner
        highest := higher (topPriority own) inner.highest }) ::
      (inner.cells (some id) ++ next.cells owner)

@[simp]
theorem length_cells (chain : Chain) (owner : Option NodeId) :
    (chain.cells owner).length = chain.size := by
  induction chain generalizing owner with
  | empty => rfl
  | node id stem own inner next innerIH nextIH =>
      simp [cells, size, innerIH, nextIH]

/-- The entries of the cells are those of the chain, in the same order. -/
theorem flatMap_cells (chain : Chain) (owner : Option NodeId) :
    (chain.cells owner).flatMap (fun cell => cell.2.entries) =
      chain.entries := by
  induction chain generalizing owner with
  | empty => rfl
  | node id stem own inner next innerIH nextIH =>
      simp [cells, entries, innerIH, nextIH]

/-! ## New branches -/

/--
A node for each match, each in the inner chain of the one before, the first of
them at `position` of the arena.  The entry is stored at the last.
-/
def branch (entry : EntryRef) : (position : Nat) → List Match → Chain
  | _, [] => empty
  | position, [stem] => node (.ofIndex position) stem [entry] empty empty
  | position, stem :: rest =>
      node (.ofIndex position) stem [] (branch entry (position + 1) rest) empty

@[simp]
theorem head?_branch (entry : EntryRef) (position : Nat) {stems : List Match}
    (nonempty : stems ≠ []) :
    (branch entry position stems).head? = some (.ofIndex position) := by
  match stems, nonempty with
  | [_], _ => rfl
  | _ :: _ :: _, _ => rfl

@[simp]
theorem highest_branch (entry : EntryRef) (position : Nat) {stems : List Match}
    (nonempty : stems ≠ []) :
    (branch entry position stems).highest = some entry.rule.priority := by
  induction stems generalizing position with
  | nil => exact absurd rfl nonempty
  | cons stem rest ih =>
      cases rest with
      | nil => rfl
      | cons second rest =>
          simp [branch, highest, topPriority, ih]

@[simp]
theorem entries_branch (entry : EntryRef) (position : Nat) {stems : List Match}
    (nonempty : stems ≠ []) :
    (branch entry position stems).entries = [entry] := by
  induction stems generalizing position with
  | nil => exact absurd rfl nonempty
  | cons stem rest ih =>
      cases rest with
      | nil => rfl
      | cons second rest => simp [branch, entries, ih]

/-- Nodes at consecutive positions of the arena. -/
def numbered : (position : Nat) → List TrieNode → List Cell
  | _, [] => []
  | position, first :: rest =>
      (.ofIndex position, first) :: numbered (position + 1) rest

/-- The cells of a branch are the nodes that an insertion adds for it. -/
theorem cells_branch (entry : EntryRef) (position : Nat) (owner : Option NodeId)
    (stems : List Match) :
    (branch entry position stems).cells owner =
      numbered position (branchNodes entry position owner stems) := by
  induction stems generalizing position owner with
  | nil => rfl
  | cons stem rest ih =>
      cases rest with
      | nil => rfl
      | cons second rest =>
          simp [branch, cells, numbered, branchNodes, topPriority, ih]

end Chain

end PacketClassifier
