import PacketClassifier.Proofs.Trie.Arena

/-!
# Tries opened at a link

A context is a tree with a hole where a link leads, the nearest node first.  What the
arena holds for a context depends on what is in the hole only through two values: the
number of its first node, which the link leads to, and the highest priority in it,
which the caches of the owners above count in.

A trie opened at a link consists of the cells of a context and of others.  The
module tells what each step of an insertion does to such a trie: following the link,
letting it lead elsewhere, and raising the caches from the owner of the hole up.
-/

namespace PacketClassifier

open Trie

/-- A tree of nodes with a hole. -/
inductive Context where
  | root
  /-- The hole is the inner chain of a node. -/
  | inside (id : NodeId) (stem : Match) (own : List EntryRef) (next : Chain)
      (outer : Context)
  /-- The hole is what follows a node. -/
  | behind (id : NodeId) (stem : Match) (own : List EntryRef) (inner : Chain)
      (outer : Context)

namespace Context

/-- The node whose inner chain the hole is in. -/
def owner : Context → Option NodeId
  | root => none
  | inside id .. => some id
  | behind _ _ _ _ outer => outer.owner

/-- The link that leads to the hole. -/
def link : Context → TrieLink
  | root => .root
  | inside id .. => .inner id
  | behind id .. => .next id

/-- The number of nodes on the way from the root to the hole. -/
def depth : Context → Nat
  | root => 0
  | inside _ _ _ _ outer | behind _ _ _ _ outer => outer.depth + 1

def plug : Context → Chain → Chain
  | root, chain => chain
  | inside id stem own next outer, chain =>
      outer.plug (.node id stem own chain next)
  | behind id stem own inner outer, chain =>
      outer.plug (.node id stem own inner chain)

/-- The first node of the whole, if the hole starts with `head`. -/
def start : Context → (head : Option NodeId) → Option NodeId
  | root, head => head
  | inside id _ _ _ outer, _ | behind id _ _ _ outer, _ => outer.start (some id)

/--
What the arena holds around the hole, if that starts with `head` and the highest
priority in it is `highest`.
-/
def cells : Context → (head : Option NodeId) → (highest : Option UInt32) →
    List Cell
  | root, _, _ => []
  | inside id stem own next outer, head, highest =>
      (id, {
        stem, entries := own, inner := head, next := next.head?
        owner := outer.owner, highest := higher (topPriority own) highest }) ::
      (next.cells outer.owner ++
        outer.cells (some id)
          (higher (higher (topPriority own) highest) next.highest))
  | behind id stem own inner outer, head, highest =>
      (id, {
        stem, entries := own, inner := inner.head?, next := head
        owner := outer.owner, highest := higher (topPriority own) inner.highest }) ::
      (inner.cells (some id) ++
        outer.cells (some id)
          (higher (higher (topPriority own) inner.highest) highest))

theorem head?_plug (context : Context) (chain : Chain) :
    (context.plug chain).head? = context.start chain.head? := by
  induction context generalizing chain with
  | root => rfl
  | inside id stem own next outer ih => exact ih _
  | behind id stem own inner outer ih => exact ih _

/-- The cells of a node and of a chain beside it stand anywhere among the others. -/
theorem perm_regroup (cell : Cell) (beside around others : List Cell) :
    (cell :: (beside ++ around) ++ others).Perm
      (around ++ (cell :: (beside ++ others))) := by
  rw [List.perm_iff_count]
  intro tested
  simp only [List.count_append, List.count_cons]
  omega

/-- A plugged context holds the cells of the context and those of the chain. -/
theorem cells_plug (context : Context) (chain : Chain) :
    ((context.plug chain).cells none).Perm
      (context.cells chain.head? chain.highest ++
        chain.cells context.owner) := by
  induction context generalizing chain with
  | root => simp [plug, cells, owner]
  | inside id stem own next outer ih =>
      refine (ih (.node id stem own chain next)).trans ?_
      simp only [Chain.cells, cells, owner, Chain.head?_node, Chain.highest]
      rw [List.perm_iff_count]
      intro cell
      simp only [List.count_append, List.count_cons]
      omega
  | behind id stem own inner outer ih =>
      refine (ih (.node id stem own inner chain)).trans ?_
      simp only [Chain.cells, cells, owner, Chain.head?_node, Chain.highest]
      rw [List.perm_iff_count]
      intro cell
      simp only [List.count_append, List.count_cons]
      omega

theorem depth_le_length_cells (context : Context) (head : Option NodeId)
    (highest : Option UInt32) :
    context.depth ≤ (context.cells head highest).length := by
  induction context generalizing head highest with
  | root => simp [depth]
  | inside id stem own next outer ih =>
      have := ih (some id) (higher (higher (topPriority own) highest) next.highest)
      simp only [depth, cells, List.length_cons, List.length_append]
      omega
  | behind id stem own inner outer ih =>
      have := ih (some id) (higher (higher (topPriority own) inner.highest) highest)
      simp only [depth, cells, List.length_cons, List.length_append]
      omega

end Context

namespace Trie

/-- The nodes of a trie are those of a tree, linked and cached accordingly. -/
structure Represents (trie : Trie) (chain : Chain) : Prop where
  root : trie.root = chain.head?
  holds : trie.Holds (chain.cells none)

/--
A trie consists of a context whose link leads to `head` and whose caches count in
`highest`, and of other cells.
-/
structure Opened (trie : Trie) (context : Context) (head : Option NodeId)
    (highest : Option UInt32) (others : List Cell) : Prop where
  root : trie.root = context.start head
  holds : trie.Holds (context.cells head highest ++ others)

variable {trie : Trie} {context outer : Context} {head : Option NodeId}
  {highest : Option UInt32} {others : List Cell}

/-- A trie can be opened at any link of the tree that it represents. -/
theorem represents_plug_iff {chain : Chain} :
    trie.Represents (context.plug chain) ↔
      trie.Opened context chain.head? chain.highest
        (chain.cells context.owner) := by
  constructor
  · intro whole
    exact ⟨whole.root.trans (context.head?_plug chain),
      whole.holds.perm (context.cells_plug chain)⟩
  · intro parts
    exact ⟨parts.root.trans (context.head?_plug chain).symm,
      parts.holds.perm (context.cells_plug chain).symm⟩

theorem Opened.perm (opened : trie.Opened context head highest others)
    {cells : List Cell} (same : others.Perm cells) :
    trie.Opened context head highest cells :=
  ⟨opened.root, opened.holds.perm (same.append_left _)⟩

/-- A hole inside a node is a part of the hole that the node is in. -/
theorem opened_inside_iff {id : NodeId} {stem : Match} {own : List EntryRef}
    {next : Chain} :
    trie.Opened (.inside id stem own next outer) head highest others ↔
      trie.Opened outer (some id)
        (higher (higher (topPriority own) highest) next.highest)
        ((id, {
          stem, entries := own, inner := head, next := next.head?
          owner := outer.owner, highest := higher (topPriority own) highest }) ::
        (next.cells outer.owner ++ others)) := by
  have regroup := fun cell beside around =>
    Context.perm_regroup cell beside around others
  exact ⟨fun opened => ⟨opened.root, opened.holds.perm (regroup _ _ _)⟩,
    fun opened => ⟨opened.root, opened.holds.perm (regroup _ _ _).symm⟩⟩

theorem opened_behind_iff {id : NodeId} {stem : Match} {own : List EntryRef}
    {inner : Chain} :
    trie.Opened (.behind id stem own inner outer) head highest others ↔
      trie.Opened outer (some id)
        (higher (higher (topPriority own) inner.highest) highest)
        ((id, {
          stem, entries := own, inner := inner.head?, next := head
          owner := outer.owner
          highest := higher (topPriority own) inner.highest }) ::
        (inner.cells (some id) ++ others)) := by
  have regroup := fun cell beside around =>
    Context.perm_regroup cell beside around others
  exact ⟨fun opened => ⟨opened.root, opened.holds.perm (regroup _ _ _)⟩,
    fun opened => ⟨opened.root, opened.holds.perm (regroup _ _ _).symm⟩⟩

theorem Opened.depth_le (opened : trie.Opened context head highest others) :
    context.depth ≤ trie.nodes.size := by
  have total := opened.holds.length
  have part := context.depth_le_length_cells head highest
  rw [List.length_append] at total
  omega

theorem Opened.node? (opened : trie.Opened context head highest others)
    {cell : Cell} (member : cell ∈ others) :
    trie.node? cell.1 = some cell.2 :=
  opened.holds.read cell (List.mem_append_right _ member)

theorem Opened.follow (opened : trie.Opened context head highest others) :
    trie.follow context.link = head := by
  cases context with
  | root => exact opened.root
  | inside id stem own next outer =>
      have read := opened.holds.read _ (List.mem_append_left _ List.mem_cons_self)
      simp only at read
      simp [Trie.follow, Context.link, read]
  | behind id stem own inner outer =>
      have read := opened.holds.read _ (List.mem_append_left _ List.mem_cons_self)
      simp only at read
      simp [Trie.follow, Context.link, read]

/-- A link that is set leads to its new target, and nothing else changes. -/
theorem Opened.setLink (opened : trie.Opened context head highest others)
    (target : NodeId) :
    (trie.setLink context.link target).Opened context (some target) highest
      others := by
  cases context with
  | root =>
      exact ⟨rfl, opened.holds.positions, opened.holds.read⟩
  | inside id stem own next outer =>
      exact ⟨opened.root, opened.holds.modifyNode _⟩
  | behind id stem own inner outer =>
      exact ⟨opened.root, opened.holds.modifyNode _⟩

theorem Opened.push (opened : trie.Opened context head highest others)
    (room : trie.nodes.size < NodeId.capacity) (node : TrieNode) :
    Opened { trie with nodes := trie.nodes.push node } context head highest
      ((.ofIndex trie.nodes.size, node) :: others) where
  root := opened.root
  holds := (opened.holds.push room node).perm List.perm_middle.symm

theorem Opened.append (opened : trie.Opened context head highest others)
    (news : List TrieNode)
    (room : trie.nodes.size + news.length ≤ NodeId.capacity) :
    Opened { trie with nodes := trie.nodes ++ news.toArray } context head highest
      (Chain.numbered trie.nodes.size news ++ others) where
  root := opened.root
  holds := by
    refine (opened.holds.append room).perm ?_
    rw [← List.append_assoc, ← List.append_assoc]
    exact List.perm_append_comm.append_right _

/-- A change of one of the other nodes leaves the context as it is. -/
theorem Opened.modifyNode {id : NodeId} {node : TrieNode}
    (opened : trie.Opened context head highest ((id, node) :: others))
    (change : TrieNode → TrieNode) :
    (trie.modifyNode id change).Opened context head highest
      ((id, change node) :: others) where
  root := opened.root
  holds :=
    ((opened.holds.perm List.perm_middle).modifyNode change).perm
      List.perm_middle.symm

end Trie

end PacketClassifier
