import PacketClassifier.Trie.Basic

/-!
# Walking a trie

A walk visits, depth first, the nodes that bear on a conjunction.  In the
overlapping mode these are the nodes whose stem some packet of the conjunction
may satisfy; in the enclosing mode those whose stem every packet of the
conjunction satisfies.  What is below a node that is not visited is skipped.
-/

namespace PacketClassifier

inductive WalkMode where
  | overlapping
  | enclosing
deriving DecidableEq

/-- The stem of a node bears on a conjunction. -/
def WalkMode.Visits (mode : WalkMode) (query : MatchSet) (stem : Match) : Prop :=
  match mode with
  | .overlapping => ∀ own ∈ query.get? stem.field, own.Intersects stem
  | .enclosing => ∃ own ∈ query.get? stem.field, own.IsSubmatch stem

instance (mode : WalkMode) (query : MatchSet) (stem : Match) :
    Decidable (mode.Visits query stem) :=
  match mode, found : query.get? stem.field with
  | .overlapping, none => isTrue (by simp [WalkMode.Visits, found])
  | .enclosing, none => isFalse (by simp [WalkMode.Visits, found])
  | .overlapping, some own =>
      decidable_of_iff (own.Intersects stem) (by simp [WalkMode.Visits, found])
  | .enclosing, some own =>
      decidable_of_iff (own.IsSubmatch stem) (by simp [WalkMode.Visits, found])

/-- The entries without matches bear on a conjunction. -/
def WalkMode.VisitsRoot (mode : WalkMode) (query : MatchSet) : Prop :=
  mode = .overlapping ∨ query.toList = []

instance (mode : WalkMode) (query : MatchSet) :
    Decidable (mode.VisitsRoot query) :=
  inferInstanceAs (Decidable (_ ∨ _))

/-- An entry that a walk comes across, with the place where it is stored. -/
structure Visit where
  slot : TrieSlot
  position : Nat
  entry : EntryRef
deriving DecidableEq

namespace Trie

def visitsOf (slot : TrieSlot) (entries : List EntryRef) : List Visit :=
  entries.mapIdx (fun position entry => { slot, position, entry })

/--
Walk a chain from a node on.  On the way from the root to a node no node comes
twice, so fuel for as many nodes as there are is enough.
-/
def walkFrom (trie : Trie) (mode : WalkMode) (query : MatchSet) :
    (fuel : Nat) → Option NodeId → List Visit
  | 0, _ => []
  | _, none => []
  | fuel + 1, some id =>
      match trie.node? id with
      | none => []
      | some node =>
          (if mode.Visits query node.stem then
            visitsOf (.node id) node.entries ++
              walkFrom trie mode query fuel node.inner
          else
            []) ++
          walkFrom trie mode query fuel node.next

def visits (trie : Trie) (mode : WalkMode) (query : MatchSet) : List Visit :=
  (if mode.VisitsRoot query then visitsOf .root trie.rootEntries else []) ++
    walkFrom trie mode query trie.nodes.size trie.root

/-- The entries that a walk comes across, in order. -/
def walk (trie : Trie) (mode : WalkMode) (query : MatchSet) : List EntryRef :=
  (trie.visits mode query).map Visit.entry

def locate? (trie : Trie) (entry : EntryRef) : Option (TrieSlot × Nat) :=
  ((trie.visits .enclosing entry.rule.matchSet).find?
    (fun visit => visit.entry = entry)).map
      (fun visit => (visit.slot, visit.position))

/-- Put an entry in the place of another; nothing changes if that is not found. -/
def replace (trie : Trie) (old new : EntryRef) : Trie :=
  match trie.locate? old with
  | none => trie
  | some (.root, position) =>
      { trie with rootEntries := trie.rootEntries.set position new }
  | some (.node id, position) =>
      trie.modifyNode id
        (fun node => { node with entries := node.entries.set position new })

end Trie

end PacketClassifier
