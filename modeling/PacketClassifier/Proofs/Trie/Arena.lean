import Mathlib.Data.List.Basic
import PacketClassifier.Proofs.Trie.Chain

/-!
# The nodes that an arena holds

An arena holds a list of cells if every cell is read back under its number and the
numbers of the cells are the positions of the arena, each once.  The order of the
cells is free, so a change of one node, or an addition of nodes, leaves all other
cells as they are.
-/

namespace PacketClassifier

/-- The number of nodes that can be told apart by their numbers. -/
def NodeId.capacity : Nat := 4294967296

theorem NodeId.index_ofIndex {index : Nat} (room : index < NodeId.capacity) :
    (NodeId.ofIndex index).index = index := by
  simp only [NodeId.capacity] at room
  simp [NodeId.ofIndex, NodeId.index, Nat.mod_eq_of_lt room]

theorem NodeId.index_injective {left right : NodeId}
    (same : left.index = right.index) : left = right := by
  cases left
  cases right
  exact congrArg NodeId.mk (UInt32.toNat_inj.mp same)

def positions (cells : List Cell) : List Nat :=
  cells.map (fun cell => cell.1.index)

@[simp]
theorem positions_cons (cell : Cell) (cells : List Cell) :
    positions (cell :: cells) = cell.1.index :: positions cells :=
  rfl

namespace Trie

/-- Every cell is read back under its number. -/
def Reads (trie : Trie) (cells : List Cell) : Prop :=
  ∀ cell ∈ cells, trie.node? cell.1 = some cell.2

/-- The arena consists of the given cells, whatever their order. -/
structure Holds (trie : Trie) (cells : List Cell) : Prop where
  positions : (positions cells).Perm (List.range trie.nodes.size)
  read : trie.Reads cells

variable {trie : Trie} {cells others : List Cell} {id : NodeId} {node : TrieNode}

theorem Holds.perm (holds : trie.Holds cells) (same : cells.Perm others) :
    trie.Holds others where
  positions := (same.map _).symm.trans holds.positions
  read cell member := holds.read cell (same.mem_iff.mpr member)

theorem Holds.length (holds : trie.Holds cells) :
    cells.length = trie.nodes.size := by
  simpa [PacketClassifier.positions] using holds.positions.length_eq

theorem Holds.empty : Trie.empty.Holds [] where
  positions := List.Perm.refl _
  read := by simp [Reads]

/-- A node that is read is among the cells, under the number that it is read by. -/
theorem Holds.mem_of_node? (holds : trie.Holds cells)
    (read : trie.node? id = some node) : (id, node) ∈ cells := by
  have inside : id.index ∈ PacketClassifier.positions cells := by
    rw [holds.positions.mem_iff, List.mem_range]
    exact (Array.getElem?_eq_some_iff.mp read).1
  obtain ⟨cell, member, same⟩ := List.mem_map.mp inside
  obtain rfl := NodeId.index_injective same
  have stored := holds.read cell member
  rw [read] at stored
  rwa [Option.some.inj stored]

/-- Two different cells are for different positions. -/
theorem Holds.apart (holds : trie.Holds ((id, node) :: others))
    {cell : Cell} (member : cell ∈ others) : cell.1.index ≠ id.index := by
  have distinct := holds.positions.nodup_iff.mpr List.nodup_range
  have fresh := (List.nodup_cons.mp distinct).1
  have listed : cell.1.index ∈ PacketClassifier.positions others :=
    List.mem_map_of_mem member
  intro same
  rw [same] at listed
  exact fresh listed

/-- A change of one node leaves the others as they are. -/
theorem Holds.modifyNode (holds : trie.Holds ((id, node) :: others))
    (change : TrieNode → TrieNode) :
    (trie.modifyNode id change).Holds ((id, change node) :: others) where
  positions := by
    simpa [Trie.modifyNode] using holds.positions
  read cell member := by
    have here : trie.nodes[id.index]? = some node :=
      holds.read (id, node) List.mem_cons_self
    rcases List.mem_cons.mp member with rfl | other
    · simp [Trie.modifyNode, Trie.node?, Array.getElem?_modify, here]
    · have different := (holds.apart other).symm
      have there : trie.nodes[cell.1.index]? = some cell.2 :=
        holds.read cell (List.mem_cons_of_mem _ other)
      simp [Trie.modifyNode, Trie.node?, Array.getElem?_modify, different, there]

theorem Holds.push (holds : trie.Holds cells)
    (room : trie.nodes.size < NodeId.capacity) (node : TrieNode) :
    Holds { trie with nodes := trie.nodes.push node }
      ((.ofIndex trie.nodes.size, node) :: cells) where
  positions := by
    simp only [positions_cons, NodeId.index_ofIndex room, Array.size_push,
      List.range_succ]
    exact (holds.positions.cons _).trans (List.perm_append_singleton _ _).symm
  read cell member := by
    rcases List.mem_cons.mp member with rfl | old
    · simp [Trie.node?, NodeId.index_ofIndex room]
    · have there : trie.nodes[cell.1.index]? = some cell.2 := holds.read cell old
      have below : cell.1.index < trie.nodes.size :=
        (Array.getElem?_eq_some_iff.mp there).1
      simpa [Trie.node?, Array.getElem?_push, Nat.ne_of_lt below] using there

/-- New nodes take the first free positions, in order. -/
theorem Holds.append (holds : trie.Holds cells) {news : List TrieNode}
    (room : trie.nodes.size + news.length ≤ NodeId.capacity) :
    Holds { trie with nodes := trie.nodes ++ news.toArray }
      (Chain.numbered trie.nodes.size news ++ cells) := by
  induction news generalizing trie cells with
  | nil => simpa [Chain.numbered] using holds
  | cons first rest ih =>
      simp only [List.length_cons] at room
      have grown := ih (holds.push (by omega) first)
        (by simp only [Array.size_push]; omega)
      have sameNodes : trie.nodes.push first ++ rest.toArray =
          trie.nodes ++ (first :: rest).toArray := by
        apply Array.toList_inj.mp
        simp
      simp only [sameNodes, Array.size_push] at grown
      exact grown.perm List.perm_middle

theorem filterMap_getElem?_range {α : Type} (list : List α) :
    (List.range list.length).filterMap (list[·]?) = list := by
  have read : (List.range list.length).map (list[·]?) = list.map some := by
    apply List.ext_getElem
    · simp
    · intro i below _
      have inside : i < list.length := by simpa using below
      simp [inside]
  calc (List.range list.length).filterMap (list[·]?)
      = ((List.range list.length).map (list[·]?)).filterMap id := by
        rw [List.filterMap_map]
        rfl
    _ = list := by
        rw [read, List.filterMap_map]
        simp

/-- The nodes of an arena are those of its cells. -/
theorem Holds.nodes (holds : trie.Holds cells) :
    (cells.map Prod.snd).Perm trie.nodes.toList := by
  have read : (PacketClassifier.positions cells).filterMap
      (trie.nodes.toList[·]?) = cells.map Prod.snd := by
    rw [PacketClassifier.positions, List.filterMap_map, ← List.filterMap_eq_map]
    apply List.filterMap_congr
    intro cell member
    simpa [Trie.node?] using holds.read cell member
  rw [← read]
  have permuted := holds.positions.filterMap (trie.nodes.toList[·]?)
  rwa [← Array.length_toList, filterMap_getElem?_range] at permuted

/-- The entries that an arena stores are those of its cells. -/
theorem Holds.entries (holds : trie.Holds cells) :
    trie.entries.Perm
      (trie.rootEntries ++ cells.flatMap (fun cell => cell.2.entries)) := by
  refine List.Perm.append_left _ ?_
  simpa [List.flatMap_map] using
    (holds.nodes.flatMap_right TrieNode.entries).symm

end Trie

end PacketClassifier
