import PacketClassifier.Proofs.MatchBits
import PacketClassifier.Proofs.Trie.Caches

/-!
# Insertions on trees

An insertion into a trie is an insertion into the tree that the trie represents.
The latter is a recursion on the tree: it goes on along the chain or into an inner
chain, or it stops at a node, which is then filled or adopted.  The proof goes down
both at once, with the trie opened at the link that the insertion has come to.
-/

namespace PacketClassifier

open Trie

namespace Chain

/-- Every node has its entries in descending priority. -/
def Sorted : Chain → Prop
  | empty => True
  | node _ _ own inner next =>
      sortedByPriority own = true ∧ inner.Sorted ∧ next.Sorted

/--
Insert an entry with the matches that are not used up on the way to the chain.  New
nodes are numbered from `fresh` on.
-/
def place (entry : EntryRef) (fresh : Nat) : Chain → List Match → Chain
  | chain, [] => chain
  | empty, stems => branch entry fresh stems
  | node id stem own inner next, candidate :: rest =>
      match stem.fit candidate with
      | .apart =>
          node id stem own inner (next.place entry fresh (candidate :: rest))
      | .inside =>
          node id stem own (inner.place entry fresh (candidate :: rest)) next
      | .equal =>
          if rest = [] then
            node id stem (insertByPriority own entry) inner next
          else
            node id stem own (inner.place entry fresh rest) next
      | .around =>
          node (.ofIndex fresh) candidate (if rest = [] then [entry] else [])
            (node id stem own inner (branch entry (fresh + 1) rest)) next
      | .fork shared =>
          node (.ofIndex fresh) shared []
            (node id stem own inner
              (branch entry (fresh + 1) (candidate :: rest))) next

end Chain

namespace Trie

variable {trie : Trie} {context : Context} {id : NodeId} {stem : Match}
  {own : List EntryRef} {inner next : Chain}

/-! ## The steps of an insertion -/

theorem length_branchNodes (entry : EntryRef) (position : Nat)
    (owner : Option NodeId) (stems : List Match) :
    (branchNodes entry position owner stems).length = stems.length := by
  induction stems generalizing position owner with
  | nil => rfl
  | cons stem rest ih =>
      cases rest with
      | nil => rfl
      | cons second rest => simp [branchNodes, ih]

/-- A branch that is hung in an empty hole fills the hole. -/
theorem Represents.hang {stems : List Match}
    (represented : trie.Represents (context.plug .empty)) (entry : EntryRef)
    (nonempty : stems ≠ [])
    (room : trie.nodes.size + stems.length ≤ NodeId.capacity) :
    (trie.hang context.link context.owner stems entry).Represents
      (context.plug (.branch entry trie.nodes.size stems)) := by
  have opened := represents_plug_iff.mp represented
  have grown := opened.append
    (branchNodes entry trie.nodes.size context.owner stems)
    (by rwa [length_branchNodes])
  have raised := grown.raise entry.rule.priority
  rw [Chain.highest, none_higher] at raised
  have linked := raised.setLink (.ofIndex trie.nodes.size)
  rw [represents_plug_iff, Chain.head?_branch _ _ nonempty,
    Chain.highest_branch _ _ nonempty, Chain.cells_branch]
  simp only [Chain.cells, List.append_nil] at linked
  exact linked

/-- An entry that is stored at a node joins the entries of the node. -/
theorem Represents.store
    (represented : trie.Represents (context.plug (.node id stem own inner next)))
    (sorted : sortedByPriority own = true) (entry : EntryRef) :
    (trie.store id entry).Represents
      (context.plug (.node id stem (insertByPriority own entry) inner next)) := by
  have opened := represents_plug_iff.mp represented
  have modified := opened.modifyNode (fun node =>
    { node with entries := insertByPriority node.entries entry })
  have raised := modified.raiseFrom_cell entry.rule.priority trie.nodes.size
    ⟨next.highest, rfl⟩ rfl
    (fun above => above.raiseFrom opened.depth_le)
  have highest :
      (Chain.node id stem (insertByPriority own entry) inner next).highest =
        higher (Chain.node id stem own inner next).highest
          (some entry.rule.priority) := by
    simp only [Chain.highest, topPriority_insert sorted]
    rw [higher_right_comm (topPriority own), higher_right_comm _ next.highest]
  have cache :
      higher (topPriority (insertByPriority own entry)) inner.highest =
        higher (higher (topPriority own) inner.highest)
          (some entry.rule.priority) := by
    rw [topPriority_insert sorted, higher_right_comm]
  rw [represents_plug_iff, highest]
  simp only [Chain.cells, cache, Trie.store, Trie.raise, Trie.modifyNode,
    Array.size_modify]
  exact raised

/-- A node that is adopted becomes the only node of an inner chain. -/
theorem Represents.adopt {node : TrieNode}
    (represented : trie.Represents (context.plug (.node id stem own inner next)))
    (read : trie.node? id = some node) (wide : Match)
    (room : trie.nodes.size < NodeId.capacity) :
    (trie.adopt context.link id node wide).2.Represents
      (context.plug (.node (.ofIndex trie.nodes.size) wide []
        (.node id stem own inner .empty) next)) := by
  have opened := represents_plug_iff.mp represented
  have stored := opened.node? List.mem_cons_self
  simp only at stored
  obtain rfl := Option.some.inj (stored.symm.trans read)
  have grown := opened.push room {
    stem := wide, owner := context.owner, next := next.head?
    inner := some id, highest := higher (topPriority own) inner.highest }
  have moved := (grown.perm (List.Perm.swap _ _ _)).modifyNode
    (fun node => { node with
      next := none, owner := some (.ofIndex trie.nodes.size) })
  have linked := moved.setLink (.ofIndex trie.nodes.size)
  have highest :
      (Chain.node (.ofIndex trie.nodes.size) wide []
        (.node id stem own inner .empty) next).highest =
        (Chain.node id stem own inner next).highest := by
    simp [Chain.highest, topPriority]
  rw [represents_plug_iff, highest]
  refine linked.perm ((List.Perm.swap _ _ _).trans ?_)
  simp [Chain.cells, Chain.highest, topPriority]

theorem size_adopt (trie : Trie) (link : TrieLink) (id : NodeId)
    (node : TrieNode) (stem : Match) :
    (trie.adopt link id node stem).2.nodes.size = trie.nodes.size + 1 := by
  cases link <;> simp [Trie.adopt, Trie.setLink, Trie.modifyNode]

/-- A branch that is hung behind an adopted node is the rest of the inner chain. -/
theorem Represents.adopt_hang {node : TrieNode} {stems : List Match}
    (represented : trie.Represents (context.plug (.node id stem own inner next)))
    (read : trie.node? id = some node) (wide : Match) (entry : EntryRef)
    (nonempty : stems ≠ [])
    (room : trie.nodes.size + stems.length < NodeId.capacity) :
    ((trie.adopt context.link id node wide).2.hang (.next id)
        (some (.ofIndex trie.nodes.size)) stems entry).Represents
      (context.plug (.node (.ofIndex trie.nodes.size) wide []
        (.node id stem own inner
          (.branch entry (trie.nodes.size + 1) stems)) next)) := by
  have adopted := represented.adopt read wide (by omega)
  have behindAdopted : Trie.Represents _
      ((Context.behind id stem own inner
        (.inside _ wide [] next context)).plug .empty) := adopted
  have hung := behindAdopted.hang entry nonempty
    (by rw [size_adopt]; omega)
  rw [size_adopt] at hung
  exact hung

/-! ## The descent -/

variable {entry : EntryRef} {candidate : Match} {rest : List Match}
  {fuel : Nat}

/-- In an empty hole, the matches that are left become a branch. -/
theorem Represents.place_empty
    (represented : trie.Represents (context.plug .empty)) :
    Trie.place entry (fuel + 1) context.link context.owner
        (candidate :: rest) trie =
      some (trie.hang context.link context.owner (candidate :: rest) entry) := by
  have opened := represents_plug_iff.mp represented
  rw [Trie.place, opened.follow]
  rfl

/-- At a node that shares nothing with the candidate, the descent goes on behind. -/
theorem Represents.place_apart
    (represented : trie.Represents (context.plug (.node id stem own inner next)))
    (fits : stem.fit candidate = .apart) :
    Trie.place entry (fuel + 1) context.link context.owner
        (candidate :: rest) trie =
      Trie.place entry fuel (.next id) context.owner (candidate :: rest) trie := by
  have opened := represents_plug_iff.mp represented
  have read := opened.node? List.mem_cons_self
  simp only at read
  simp only [Trie.place, opened.follow, Chain.head?_node, read, fits]

theorem field_ne_of_ordered {first second : Match} {later : List Match}
    (ordered : InFieldOrder (first :: second :: later)) :
    first.field ≠ second.field := by
  intro same
  have before := (List.pairwise_cons.mp ordered).1 second List.mem_cons_self
  rw [same] at before
  exact Nat.lt_irrefl _ before

/-- What a descent from a link makes of a trie is what it makes of the tree. -/
theorem Represents.place {chain : Chain}
    (represented : trie.Represents (context.plug chain))
    (sorted : chain.Sorted) (ordered : InFieldOrder (candidate :: rest))
    (room : trie.nodes.size + (candidate :: rest).length < NodeId.capacity)
    (enough : chain.size + (candidate :: rest).length ≤ fuel) :
    ∃ grown,
      Trie.place entry (fuel + 1) context.link context.owner
        (candidate :: rest) trie = some grown ∧
      grown.Represents
        (context.plug (chain.place entry trie.nodes.size (candidate :: rest))) := by
  -- on the tree in the hole: a step into a part of it moves the hole there
  induction chain generalizing context candidate rest fuel with
  | empty =>
      exact ⟨_, represented.place_empty, represented.hang entry (by simp) (by omega)⟩
  | node id stem own inner next innerIH nextIH =>
      have opened := represents_plug_iff.mp represented
      have read := opened.node? List.mem_cons_self
      simp only at read
      simp only [Chain.Sorted] at sorted
      simp only [Chain.size, List.length_cons] at enough room
      obtain ⟨fuel, rfl⟩ : ∃ less, fuel = less + 1 := ⟨fuel - 1, by omega⟩
      have insideNode : trie.Represents
          ((Context.inside id stem own next context).plug inner) := represented
      have behindNode : trie.Represents
          ((Context.behind id stem own inner context).plug next) := represented
      cases fits : stem.fit candidate with
      | apart =>
          rw [represented.place_apart fits]
          simp only [Chain.place, fits]
          exact nextIH behindNode sorted.2.2 ordered room
            (by simp only [List.length_cons]; omega)
      | inside =>
          simp only [Trie.place, opened.follow, Chain.head?_node, read, fits,
            Chain.place]
          exact innerIH insideNode sorted.2.1 ordered room
            (by simp only [List.length_cons]; omega)
      | equal =>
          simp only [Trie.place, opened.follow, Chain.head?_node, read, fits,
            Chain.place]
          cases rest with
          | nil => exact ⟨_, rfl, represented.store sorted.1 entry⟩
          | cons second rest =>
              simp only [List.length_cons] at enough room
              exact innerIH insideNode sorted.2.1 (List.pairwise_cons.mp ordered).2
                (by simp only [List.length_cons]; omega)
                (by simp only [List.length_cons]; omega)
      | around =>
          simp only [Trie.place, opened.follow, Chain.head?_node, read, fits,
            Chain.place]
          have adopted := represented.adopt read candidate (by omega)
          cases rest with
          | nil => exact ⟨_, rfl, adopted.store rfl entry⟩
          | cons second rest =>
              simp only [List.length_cons] at enough room
              obtain ⟨fuel, rfl⟩ : ∃ less, fuel = less + 1 :=
                ⟨fuel - 1, by omega⟩
              have insideAdopter : Trie.Represents _
                  ((Context.inside _ candidate [] next context).plug
                    (.node id stem own inner .empty)) := adopted
              have behindAdopted : Trie.Represents _
                  ((Context.behind id stem own inner
                    (.inside _ candidate [] next context)).plug .empty) := adopted
              have fields : stem.field ≠ second.field := by
                rw [(Match.fit_around fits).1]
                exact field_ne_of_ordered ordered
              -- the adopted node is for another field, so the descent passes it
              refine ⟨_, ?_, represented.adopt_hang read candidate entry
                (List.cons_ne_nil second rest)
                (by simp only [List.length_cons]; omega)⟩
              exact (insideAdopter.place_apart (Match.fit_of_field_ne fields)).trans
                behindAdopted.place_empty
      | fork shared =>
          simp only [Trie.place, opened.follow, Chain.head?_node, read, fits,
            Chain.place]
          exact ⟨_, rfl, represented.adopt_hang read shared entry
            (List.cons_ne_nil candidate rest)
            (by simp only [List.length_cons]; omega)⟩

end Trie

end PacketClassifier
