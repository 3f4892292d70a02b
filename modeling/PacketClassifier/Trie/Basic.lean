import PacketClassifier.PriorityList

/-!
# Tries of match stems

A trie indexes entries by the matches of their conjunctions, one field after
the other.  Each node tests a match, its *stem*.  The entries of a node are those whose
matches are used up there.  The *inner chain* of a node holds the nodes that
are worth a test once the stem of the node is satisfied: tighter matches on the
same field, or matches on later fields.  The *next* node of a node is an
alternative in the same chain, and the *owner* of a node is the node whose inner
chain it is in.  Every node caches the highest priority found at the node or in
its inner chain, so that a search can skip what cannot beat what it has found.

Nodes live in an arena and are known by number.  Entries without matches are
kept beside the arena.
-/

namespace PacketClassifier

structure NodeId where
  number : UInt32
deriving DecidableEq, Inhabited

namespace NodeId

/-- The position of a node in the arena. -/
def index (id : NodeId) : Nat :=
  id.number.toNat

/-- The node at a position of the arena. -/
def ofIndex (index : Nat) : NodeId :=
  ⟨UInt32.ofNat index⟩

def structuralText (id : NodeId) : String :=
  "NodeId(" ++ Text.decimal id.index ++ ")"

end NodeId

structure TrieNode where
  stem : Match
  /-- In descending priority, then in the order of installation. -/
  entries : List EntryRef := []
  inner : Option NodeId := none
  next : Option NodeId := none
  owner : Option NodeId := none
  /-- The highest priority of the entries of the node and of its inner chain. -/
  highest : Option UInt32 := none
deriving DecidableEq

structure Trie where
  nodes : Array TrieNode := #[]
  root : Option NodeId := none
  /-- The entries without matches, in the order of the entries of a node. -/
  rootEntries : List EntryRef := []
  size : Nat := 0
deriving DecidableEq, Inhabited

/-- Where a chain of nodes starts or goes on. -/
inductive TrieLink where
  | root
  | inner (owner : NodeId)
  | next (node : NodeId)
deriving DecidableEq

inductive TrieSlot where
  | root
  | node (id : NodeId)
deriving DecidableEq

namespace Trie

def empty : Trie := {}

def node? (trie : Trie) (id : NodeId) : Option TrieNode :=
  trie.nodes[id.index]?

/-- Every entry: those without matches, then those of the nodes in arena order. -/
def entries (trie : Trie) : List EntryRef :=
  trie.rootEntries ++ trie.nodes.toList.flatMap TrieNode.entries

def modifyNode (trie : Trie) (id : NodeId) (change : TrieNode → TrieNode) : Trie :=
  { trie with nodes := trie.nodes.modify id.index change }

/-- The node that a link leads to, if any. -/
def follow (trie : Trie) : TrieLink → Option NodeId
  | .root => trie.root
  | .inner owner => trie.node? owner >>= TrieNode.inner
  | .next node => trie.node? node >>= TrieNode.next

/-- Let a link lead to a node. -/
def setLink (trie : Trie) (link : TrieLink) (target : NodeId) : Trie :=
  match link with
  | .root => { trie with root := some target }
  | .inner owner =>
      trie.modifyNode owner (fun node => { node with inner := some target })
  | .next before =>
      trie.modifyNode before (fun node => { node with next := some target })

end Trie

end PacketClassifier
