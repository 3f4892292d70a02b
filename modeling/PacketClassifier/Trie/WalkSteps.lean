import PacketClassifier.Trie.Walk

/-!
# Walks in steps

A walk can be interrupted after every entry and taken up again, so all it knows is where it
stands.  A step comes across the next entry at that place, or goes on to another place.  When a
node is done with, the walk goes on to the next node; at the end of a chain it climbs back to
the owner of the chain, which is then done with too.
-/

namespace PacketClassifier

/-- Where a walk stands. -/
inductive WalkState where
  /-- In front of a position of the entries kept in a slot. -/
  | before (slot : TrieSlot) (position : Nat)
  /-- A node and its inner chain are done with. -/
  | leaving (id : NodeId)
  | ended
deriving DecidableEq

namespace WalkState

/-- Where a walk starts. -/
def start : WalkState := before .root 0

/-- In front of the node that comes first in the rest of a chain, or behind the chain. -/
def enter : Option NodeId → (owner : Option NodeId) → WalkState
  | some id, _ => before (.node id) 0
  | none, some owner => leaving owner
  | none, none => ended

/-- Come across the entry at a position of a slot; behind the last one go on to `further`. -/
def meet (slot : TrieSlot) (entries : List EntryRef) (position : Nat) (further : WalkState) :
    Option Visit × WalkState :=
  match entries[position]? with
  | some entry => (some { slot, position, entry }, before slot (position + 1))
  | none => (none, further)

end WalkState

namespace Trie

open WalkState

/-- One step of a walk, with the entry that it comes across, if it does. -/
def walkStep (trie : Trie) (mode : WalkMode) (query : MatchSet) :
    WalkState → Option Visit × WalkState
  | before .root position =>
      if mode.VisitsRoot query then
        meet .root trie.rootEntries position (enter trie.root none)
      else
        (none, enter trie.root none)
  | before (.node id) position =>
      match trie.node? id with
      | none => (none, ended)
      | some node =>
          if mode.Visits query node.stem then
            meet (.node id) node.entries position (enter node.inner (some id))
          else
            (none, leaving id)
  | leaving id =>
      match trie.node? id with
      | none => (none, ended)
      | some node => (none, enter node.next node.owner)
  | ended => (none, ended)

/-- Several steps of a walk, with the entries that they come across. -/
def walkSteps (trie : Trie) (mode : WalkMode) (query : MatchSet) :
    Nat → WalkState → List Visit × WalkState
  | 0, state => ([], state)
  | steps + 1, state =>
      let (met, state) := trie.walkStep mode query state
      let (others, last) := walkSteps trie mode query steps state
      (met.toList ++ others, last)

end Trie

end PacketClassifier
