import PacketClassifier.Trie.Basic

/-!
# Inserting into a trie

An insertion goes down the trie with the matches of the new entry.  Along a
chain it stops at the first node whose stem shares leading bits with the next
match.  What it does there depends on how stem and match lie to each other.

* Equal: the match is used up, and the rest goes into the inner chain.
* The stem is wider: the match itself goes into the inner chain.
* The match is wider: a node for it takes the place of the node found, which
  moves into its inner chain together with the rest.
* They fork: a node for the shared leading bits takes the place of the node
  found; the latter and a branch for the rest become its inner chain.

A chain without such a node is extended by a branch for the rest.
-/

namespace PacketClassifier

/-- How a match lies to the stem of a node. -/
inductive StemFit where
  | equal
  | inside
  | around
  /-- Both are narrower than what they share. -/
  | fork (shared : Match)
  /-- They share no leading bit. -/
  | apart
deriving DecidableEq

/--
How `candidate` lies to `stem`.  Equality comes first: of a stem whose mask is not a
run of leading bits, only a part would be shared.
-/
def Match.fit (stem candidate : Match) : StemFit :=
  if stem = candidate then
    .equal
  else
    match stem.alike? candidate with
    | none => .apart
    | some shared =>
        if shared.IsWildcard then .apart
        else if shared = stem then .inside
        else if shared = candidate then .around
        else .fork shared

namespace Trie

/--
Raise the cached priority of a node and of its owners to `priority`, up to the
first that has it already.  Every step but the last raises a cache, so there are
no more steps than nodes, and one.
-/
def raiseFrom (priority : UInt32) : (fuel : Nat) → Option NodeId → Trie → Trie
  | 0, _, trie => trie
  | _, none, trie => trie
  | fuel + 1, some id, trie =>
      match trie.node? id with
      | none => trie
      | some node =>
          if node.highest.any (priority ≤ ·) then
            trie
          else
            raiseFrom priority fuel node.owner
              (trie.modifyNode id
                (fun node => { node with highest := some priority }))

/-- Raise the cached priority of a node and of its owners. -/
def raise (trie : Trie) (cursor : Option NodeId) (priority : UInt32) : Trie :=
  raiseFrom priority (trie.nodes.size + 1) cursor trie

/--
A node for each match, each in the inner chain of the one before, the first of
them at `position` of the arena.  The entry is stored at the last.
-/
def branchNodes (entry : EntryRef) :
    (position : Nat) → (owner : Option NodeId) → List Match → List TrieNode
  | _, _, [] => []
  | _, owner, [stem] =>
      [{ stem, entries := [entry], owner, highest := some entry.rule.priority }]
  | position, owner, stem :: rest =>
      { stem, owner, inner := some (.ofIndex (position + 1)),
        highest := some entry.rule.priority } ::
      branchNodes entry (position + 1) (some (.ofIndex position)) rest

/-- Let a link lead to a new branch for the rest of the matches of an entry. -/
def hang (trie : Trie) (link : TrieLink) (owner : Option NodeId)
    (stems : List Match) (entry : EntryRef) : Trie :=
  let position := trie.nodes.size
  let grown : Trie :=
    { trie with
      nodes := trie.nodes ++ (branchNodes entry position owner stems).toArray }
  (grown.raise owner entry.rule.priority).setLink link (.ofIndex position)

def store (trie : Trie) (id : NodeId) (entry : EntryRef) : Trie :=
  (trie.modifyNode id (fun node =>
    { node with entries := insertByPriority node.entries entry })).raise
      (some id) entry.rule.priority

/--
Put a new node for `stem` in the place of a node, which becomes the only node
of its inner chain.
-/
def adopt (trie : Trie) (link : TrieLink) (id : NodeId) (node : TrieNode)
    (stem : Match) : NodeId × Trie :=
  let adopter := NodeId.ofIndex trie.nodes.size
  let grown : Trie :=
    { trie with
      nodes := trie.nodes.push {
        stem, owner := node.owner, next := node.next, inner := some id,
        highest := node.highest } }
  (adopter,
    (grown.modifyNode id (fun node =>
      { node with next := none, owner := some adopter })).setLink link adopter)

/--
Go down from a link with the matches of an entry that are not used up, and
store the entry.  There is no result if the fuel runs out or a link leads nowhere.
-/
def place (entry : EntryRef) : (fuel : Nat) → (link : TrieLink) →
    (owner : Option NodeId) → (stems : List Match) → Trie → Option Trie
  | 0, _, _, _, _ => none
  | _, _, _, [], _ => none
  | fuel + 1, link, owner, stem :: rest, trie =>
      match trie.follow link with
      | none => some (trie.hang link owner (stem :: rest) entry)
      | some id =>
          match trie.node? id with
          | none => none
          | some node =>
              match node.stem.fit stem with
              | .apart => place entry fuel (.next id) owner (stem :: rest) trie
              | .inside =>
                  place entry fuel (.inner id) (some id) (stem :: rest) trie
              | .equal =>
                  if rest.isEmpty then
                    some (trie.store id entry)
                  else
                    place entry fuel (.inner id) (some id) rest trie
              | .around =>
                  let (adopter, grown) := trie.adopt link id node stem
                  if rest.isEmpty then
                    some (grown.store adopter entry)
                  else
                    place entry fuel (.inner adopter) (some adopter) rest grown
              | .fork shared =>
                  let (adopter, grown) := trie.adopt link id node shared
                  some (grown.hang (.next id) (some adopter) (stem :: rest) entry)

/--
Install an entry.  The descent passes a node at most once, save for nodes that
are adopted, of which there are no more than matches.
-/
def insert? (trie : Trie) (entry : EntryRef) : Option Trie :=
  match entry.rule.matchSet.toList with
  | [] =>
      some { trie with
        rootEntries := insertByPriority trie.rootEntries entry
        size := trie.size + 1 }
  | stems =>
      (place entry (trie.nodes.size + stems.length + 1) .root none stems trie).map
        (fun grown => { grown with size := grown.size + 1 })

/-- Install an entry; a trie whose links lead nowhere stays as it is. -/
def insert (trie : Trie) (entry : EntryRef) : Trie :=
  (trie.insert? entry).getD trie

end Trie

end PacketClassifier
