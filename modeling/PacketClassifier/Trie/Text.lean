import PacketClassifier.Match.Text
import PacketClassifier.Trie.Basic

/-!
# Written tries

A trie is written node by node, depth first, each node on a line of its own
and its entries below it, further to the right the deeper they are.
-/

namespace PacketClassifier.Trie

/-- A line that names an entry, `indent` characters from the left. -/
def entryLine (indent : Nat) (describe : EntryRef → String) (entry : EntryRef) :
    String :=
  String.ofList (List.replicate indent ' ') ++ "  -> " ++ describe entry ++ "\n"

def nodeLine (indent : Nat) (node : TrieNode) : String :=
  let cache := match node.highest with
    | none => ""
    | some priority => " (max priority " ++ Text.decimal priority.toNat ++ ")"
  String.ofList (List.replicate indent ' ') ++ node.stem.text ++ cache ++ "\n"

/-- The lines of a chain from a node on. -/
def chainText (trie : Trie) (describe : EntryRef → String) :
    (fuel depth : Nat) → Option NodeId → String
  | 0, _, _ => ""
  | _, _, none => ""
  | fuel + 1, depth, some id =>
      match trie.node? id with
      | none => ""
      | some node =>
          nodeLine (2 * depth) node ++
            String.join (node.entries.map (entryLine (2 * depth) describe)) ++
            chainText trie describe fuel (depth + 1) node.inner ++
            chainText trie describe fuel depth node.next

/-- A trie as written in dumps; `describe` writes its entries. -/
def text (trie : Trie) (describe : EntryRef → String) : String :=
  "Trie (" ++ Text.decimal trie.size ++ " entries, " ++
    Text.decimal trie.nodes.size ++ " nodes):\n" ++
    String.join (trie.rootEntries.map (entryLine 0 describe)) ++
    chainText trie describe trie.nodes.size 1 trie.root

end PacketClassifier.Trie
