import PacketClassifier.Trie.Basic

/-!
# Searching a trie

A search goes through the trie depth first, with the best entry found so far.
It enters a node if the node promises an entry of higher priority and the
packet satisfies its stem.
-/

namespace PacketClassifier

/-- An entry of this priority, or of a cached one, would be better than `best`. -/
def beats (priority : UInt32) (best : Option EntryRef) : Bool :=
  best.all (fun entry => entry.rule.priority < priority)

namespace TrieNode

/-- The node or its inner chain holds an entry better than `best`. -/
def promises (node : TrieNode) (best : Option EntryRef) : Bool :=
  node.highest.any (beats · best)

/-- The better one of `best` and the entry of the node with the highest priority. -/
def improve (node : TrieNode) (best : Option EntryRef) : Option EntryRef :=
  match node.entries.head? with
  | none => best
  | some head => if beats head.rule.priority best then some head else best

end TrieNode

namespace Trie

/--
The best entry for a packet in a chain from a node on, or `best` if none is
better.  Fuel for as many nodes as there are is enough.
-/
def searchFrom (trie : Trie) (packet : Packet) :
    (fuel : Nat) → Option NodeId → (best : Option EntryRef) → Option EntryRef
  | 0, _, best => best
  | _, none, best => best
  | fuel + 1, some id, best =>
      match trie.node? id with
      | none => best
      | some node =>
          let better :=
            if node.promises best ∧ node.stem.Admits packet then
              searchFrom trie packet fuel node.inner (node.improve best)
            else
              best
          searchFrom trie packet fuel node.next better

/-- The entry of highest priority whose conjunction a packet satisfies. -/
def find? (trie : Trie) (packet : Packet) : Option EntryRef :=
  searchFrom trie packet trie.nodes.size trie.root trie.rootEntries.head?

end Trie

end PacketClassifier
