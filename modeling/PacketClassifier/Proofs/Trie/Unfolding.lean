import Mathlib.Data.List.Nodup
import Mathlib.Data.List.Perm.Subperm
import Mathlib.Logic.Function.Iterate
import PacketClassifier.Proofs.Trie.Context
import PacketClassifier.Proofs.Trie.Reading

/-!
# Trees unfolded from an arena

A tree that is read from an arena unfolds the links: a node that two links lead to comes
twice, with all that is below it.  The owners rule that out.  From any node of a chain the
owners lead up, node by node, to the owner of the chain.  A node in two parts of a tree
would lead up out of both parts, although the way up does not depend on the part.
-/

namespace PacketClassifier

open Trie

namespace Chain

/-- The numbers of the nodes, depth first. -/
def ids : Chain → List NodeId
  | empty => []
  | node id _ _ inner next => id :: (inner.ids ++ next.ids)

theorem map_fst_cells (chain : Chain) (owner : Option NodeId) :
    (chain.cells owner).map Prod.fst = chain.ids := by
  induction chain generalizing owner with
  | empty => rfl
  | node id stem own inner next innerIH nextIH => simp [cells, ids, innerIH, nextIH]

end Chain

namespace Trie

variable {trie : Trie} {chain inner next : Chain} {owner : Option NodeId} {id : NodeId}
  {stem : Match} {own : List EntryRef}

/-! ## One tree for every start -/

/-- What a tree holds is determined by where it starts. -/
theorem Reads.eq_of_head? {first second : Chain} {other : Option NodeId}
    (reads : trie.Reads (first.cells owner)) (readsToo : trie.Reads (second.cells other))
    (same : first.head? = second.head?) : first = second := by
  induction first generalizing second owner other with
  | empty =>
      cases second with
      | empty => rfl
      | node => cases same
  | node id stem own inner next innerIH nextIH =>
      cases second with
      | empty => cases same
      | node otherId otherStem otherOwn otherInner otherNext =>
          obtain rfl := Option.some.inj same
          obtain ⟨here, innerReads, nextReads⟩ := reads.node
          obtain ⟨there, otherInnerReads, otherNextReads⟩ := readsToo.node
          have nodes := Option.some.inj (here.symm.trans there)
          simp only [TrieNode.mk.injEq] at nodes
          obtain ⟨rfl, rfl, innerStart, nextStart, -⟩ := nodes
          rw [innerIH innerReads otherInnerReads innerStart,
            nextIH nextReads otherNextReads nextStart]

/-- At every node of a tree a part of it starts. -/
theorem Reads.exists_part (reads : trie.Reads (chain.cells owner))
    (member : id ∈ chain.ids) :
    ∃ (part : Chain) (other : Option NodeId), part.head? = some id ∧ part.size ≤ chain.size ∧
      trie.Reads (part.cells other) := by
  induction chain generalizing owner with
  | empty => exact absurd member List.not_mem_nil
  | node first stem own inner next innerIH nextIH =>
      obtain ⟨-, innerReads, nextReads⟩ := reads.node
      rcases List.mem_cons.mp member with rfl | below
      · exact ⟨_, owner, rfl, Nat.le_refl _, reads⟩
      · rcases List.mem_append.mp below with inside | behind
        · obtain ⟨part, other, start, smaller, partReads⟩ := innerIH innerReads inside
          exact ⟨part, other, start, by rw [Chain.size]; omega, partReads⟩
        · obtain ⟨part, other, start, smaller, partReads⟩ := nextIH nextReads behind
          exact ⟨part, other, start, by rw [Chain.size]; omega, partReads⟩

/-- A node does not come again in the chains that it leads to, which are smaller. -/
theorem Reads.not_mem_ids
    (reads : trie.Reads ((Chain.node id stem own inner next).cells owner)) :
    id ∉ inner.ids ∧ id ∉ next.ids := by
  obtain ⟨-, innerReads, nextReads⟩ := reads.node
  have larger : ∀ {part : Chain} {other : Option NodeId}, trie.Reads (part.cells other) →
      part.head? = some id → inner.size + next.size < part.size := by
    intro part other partReads start
    obtain rfl := reads.eq_of_head? partReads start.symm
    exact Nat.lt_succ_self _
  constructor
  · intro member
    obtain ⟨part, other, start, smaller, partReads⟩ := innerReads.exists_part member
    have := larger partReads start
    omega
  · intro member
    obtain ⟨part, other, start, smaller, partReads⟩ := nextReads.exists_part member
    have := larger partReads start
    omega

/-! ## The way up -/

/-- The owner of a node, as the node names it. -/
def ownerOf (trie : Trie) (id : NodeId) : Option NodeId :=
  trie.node? id >>= TrieNode.owner

/-- Go up from a node, from owner to owner. -/
def ascend (trie : Trie) (steps : Nat) (start : Option NodeId) : Option NodeId :=
  (· >>= trie.ownerOf)^[steps] start

theorem ascend_succ (steps : Nat) (start : Option NodeId) :
    trie.ascend (steps + 1) start = trie.ascend steps start >>= trie.ownerOf :=
  Function.iterate_succ_apply' _ _ _

theorem Reads.ownerOf_eq
    (reads : trie.Reads ((Chain.node id stem own inner next).cells owner)) :
    trie.ownerOf id = owner := by
  rw [ownerOf, reads.node.1]
  rfl

/-- From every node of a chain the way up leads through the chain, and then to its owner. -/
theorem Reads.exists_ascend (reads : trie.Reads (chain.cells owner))
    (member : id ∈ chain.ids) :
    ∃ steps, (∀ fewer ≤ steps, ∃ above ∈ chain.ids,
        trie.ascend fewer (some id) = some above) ∧
      trie.ascend (steps + 1) (some id) = owner := by
  induction chain generalizing owner with
  | empty => exact absurd member List.not_mem_nil
  | node first stem own inner next innerIH nextIH =>
      obtain ⟨-, innerReads, nextReads⟩ := reads.node
      rcases List.mem_cons.mp member with rfl | below
      · refine ⟨0, fun fewer most => ?_, ?_⟩
        · obtain rfl := Nat.le_zero.mp most
          exact ⟨id, List.mem_cons_self, rfl⟩
        · exact reads.ownerOf_eq
      · rcases List.mem_append.mp below with inside | behind
        · obtain ⟨steps, within, out⟩ := innerIH innerReads inside
          -- one step more, from the node whose inner chain it is
          refine ⟨steps + 1, fun fewer most => ?_, ?_⟩
          · rcases Nat.lt_or_ge steps fewer with last | early
            · obtain rfl : fewer = steps + 1 := by omega
              exact ⟨first, List.mem_cons_self, out⟩
            · obtain ⟨above, listed, reached⟩ := within fewer early
              exact ⟨above, List.mem_cons_of_mem _ (List.mem_append_left _ listed), reached⟩
          · rw [ascend_succ, out]
            exact reads.ownerOf_eq
        · obtain ⟨steps, within, out⟩ := nextIH nextReads behind
          refine ⟨steps, fun fewer most => ?_, out⟩
          obtain ⟨above, listed, reached⟩ := within fewer most
          exact ⟨above, List.mem_cons_of_mem _ (List.mem_append_right _ listed), reached⟩

/-- A tree that does not hold its own owner holds no node twice. -/
theorem Reads.nodup_ids (reads : trie.Reads (chain.cells owner))
    (outside : ∀ id ∈ chain.ids, owner ≠ some id) : chain.ids.Nodup := by
  induction chain generalizing owner with
  | empty => exact List.nodup_nil
  | node id stem own inner next innerIH nextIH =>
      obtain ⟨-, innerReads, nextReads⟩ := reads.node
      obtain ⟨notInside, notBehind⟩ := reads.not_mem_ids
      have innerNodup := innerIH innerReads fun other listed same =>
        notInside (Option.some.inj same ▸ listed)
      have nextNodup := nextIH nextReads fun other listed =>
        outside other (List.mem_cons_of_mem _ (List.mem_append_right _ listed))
      refine List.nodup_cons.mpr ⟨?_, List.nodup_append'.mpr ⟨innerNodup, nextNodup, ?_⟩⟩
      · rw [List.mem_append]
        exact not_or.mpr ⟨notInside, notBehind⟩
      intro shared inside behind
      obtain ⟨steps, within, out⟩ := innerReads.exists_ascend inside
      obtain ⟨others, withinNext, outOfNext⟩ := nextReads.exists_ascend behind
      rcases Nat.lt_trichotomy steps others with fewer | rfl | more
      · -- the way leads up to the node before it is out of what follows the node
        obtain ⟨above, listed, reached⟩ := withinNext (steps + 1) fewer
        exact notBehind (Option.some.inj (out.symm.trans reached) ▸ listed)
      · exact outside id List.mem_cons_self (outOfNext.symm.trans out)
      · obtain ⟨above, listed, reached⟩ := within (others + 1) more
        exact outside above (List.mem_cons_of_mem _ (List.mem_append_left _ listed))
          (outOfNext.symm.trans reached)

/-- An arena holds a tree that is read from it and has as many nodes. -/
theorem Reads.holds (reads : trie.Reads (chain.cells none))
    (whole : chain.size = trie.nodes.size) : trie.Holds (chain.cells none) where
  read := reads
  positions := by
    have listed : positions (chain.cells none) = chain.ids.map NodeId.index := by
      rw [← Chain.map_fst_cells chain none, List.map_map]
      rfl
    have distinct : (positions (chain.cells none)).Nodup := by
      rw [listed]
      exact (reads.nodup_ids (by simp)).map fun _ _ => NodeId.index_injective
    have inside : positions (chain.cells none) ⊆ List.range trie.nodes.size := by
      intro index member
      obtain ⟨cell, held, rfl⟩ := List.mem_map.mp member
      exact List.mem_range.mpr (Array.getElem?_eq_some_iff.mp (reads cell held)).1
    apply (List.subperm_of_subset distinct inside).perm_of_length_le
    rw [positions, List.length_map, Chain.length_cells, List.length_range]
    exact Nat.le_of_eq whole.symm

/-! ## Ways to a node -/

/-- From a node a way goes on into its inner chain, or to the next node. -/
inductive Turn where
  | inner
  | next
deriving DecidableEq

def Turn.link : Turn → NodeId → TrieLink
  | .inner, id => .inner id
  | .next, id => .next id

/-- The node that a way leads to that starts with a link. -/
def lead (trie : Trie) : (way : List Turn) → TrieLink → Option NodeId
  | [], link => trie.follow link
  | turn :: way, link => trie.follow link >>= fun id => trie.lead way (turn.link id)

variable {way : List Turn} {link : TrieLink}

theorem lead_cons (start : trie.follow link = some id) (turn : Turn) (way : List Turn) :
    trie.lead (turn :: way) link = trie.lead way (turn.link id) := by
  rw [lead, start]
  rfl

/-- Ways from a node lead on from the starts of the chains that it leads to. -/
theorem Reads.follow_link
    (reads : trie.Reads ((Chain.node id stem own inner next).cells owner)) :
    trie.follow (Turn.inner.link id) = inner.head? ∧
      trie.follow (Turn.next.link id) = next.head? := by
  have here := reads.node.1
  constructor
  · rw [Turn.link, follow, here]
    rfl
  · rw [Turn.link, follow, here]
    rfl

theorem Reads.mem_of_lead (reads : trie.Reads (chain.cells owner))
    (start : trie.follow link = chain.head?) (led : trie.lead way link = some id) :
    id ∈ chain.ids := by
  induction chain generalizing owner link way with
  | empty => cases way <;> simp [lead, start] at led
  | node first stem own inner next innerIH nextIH =>
      obtain ⟨-, innerReads, nextReads⟩ := reads.node
      obtain ⟨intoInner, toNext⟩ := reads.follow_link
      cases way with
      | nil =>
          obtain rfl := Option.some.inj (start.symm.trans led)
          exact List.mem_cons_self
      | cons turn rest =>
          rw [lead_cons start] at led
          apply List.mem_cons_of_mem
          cases turn with
          | inner => exact List.mem_append_left _ (innerIH innerReads intoInner led)
          | next => exact List.mem_append_right _ (nextIH nextReads toNext led)

theorem Reads.exists_way (reads : trie.Reads (chain.cells owner))
    (start : trie.follow link = chain.head?) (member : id ∈ chain.ids) :
    ∃ way, trie.lead way link = some id := by
  induction chain generalizing owner link with
  | empty => exact absurd member List.not_mem_nil
  | node first stem own inner next innerIH nextIH =>
      obtain ⟨-, innerReads, nextReads⟩ := reads.node
      obtain ⟨intoInner, toNext⟩ := reads.follow_link
      rcases List.mem_cons.mp member with rfl | below
      · exact ⟨[], start⟩
      · rcases List.mem_append.mp below with inside | behind
        · obtain ⟨way, led⟩ := innerIH innerReads intoInner inside
          exact ⟨.inner :: way, (lead_cons start _ _).trans led⟩
        · obtain ⟨way, led⟩ := nextIH nextReads toNext behind
          exact ⟨.next :: way, (lead_cons start _ _).trans led⟩

/-- Where no node comes twice, no two ways lead to a node. -/
theorem Reads.way_unique {other : List Turn} (reads : trie.Reads (chain.cells owner))
    (distinct : chain.ids.Nodup) (start : trie.follow link = chain.head?)
    (led : trie.lead way link = some id) (ledToo : trie.lead other link = some id) :
    way = other := by
  induction chain generalizing owner link way other with
  | empty => cases way <;> simp [lead, start] at led
  | node first stem own inner next innerIH nextIH =>
      obtain ⟨-, innerReads, nextReads⟩ := reads.node
      obtain ⟨intoInner, toNext⟩ := reads.follow_link
      obtain ⟨fresh, below⟩ := List.nodup_cons.mp distinct
      obtain ⟨innerDistinct, nextDistinct, apart⟩ := List.nodup_append'.mp below
      -- the node is not further on, where other ways lead
      have ends : ∀ {turn : Turn} {rest : List Turn},
          trie.lead (turn :: rest) link = some first → False := by
        intro turn rest led
        rw [lead_cons start] at led
        cases turn with
        | inner =>
            exact fresh (List.mem_append_left _ (innerReads.mem_of_lead intoInner led))
        | next =>
            exact fresh (List.mem_append_right _ (nextReads.mem_of_lead toNext led))
      cases way with
      | nil =>
          obtain rfl := Option.some.inj (start.symm.trans led)
          cases other with
          | nil => rfl
          | cons turn rest => exact (ends ledToo).elim
      | cons turn rest =>
          cases other with
          | nil =>
              obtain rfl := Option.some.inj (start.symm.trans ledToo)
              exact (ends led).elim
          | cons turnToo restToo =>
              rw [lead_cons start] at led ledToo
              cases turn with
              | inner =>
                  have inside := innerReads.mem_of_lead intoInner led
                  cases turnToo with
                  | inner => rw [innerIH innerReads innerDistinct intoInner led ledToo]
                  | next => exact (apart inside (nextReads.mem_of_lead toNext ledToo)).elim
              | next =>
                  have behind := nextReads.mem_of_lead toNext led
                  cases turnToo with
                  | inner =>
                      exact (apart (innerReads.mem_of_lead intoInner ledToo) behind).elim
                  | next => rw [nextIH nextReads nextDistinct toNext led ledToo]

/-- A single way leads from the root to every node of a trie that represents a tree. -/
theorem Represents.existsUnique_way (represents : trie.Represents chain) {index : Nat}
    (inside : index < trie.nodes.size) :
    ∃! way, (trie.lead way .root).map NodeId.index = some index := by
  have reads := represents.holds.read
  have start : trie.follow .root = chain.head? := represents.root
  have distinct : chain.ids.Nodup := reads.nodup_ids (by simp)
  have listed : index ∈ positions (chain.cells none) :=
    represents.holds.positions.mem_iff.mpr (List.mem_range.mpr inside)
  obtain ⟨cell, held, rfl⟩ := List.mem_map.mp listed
  have member : cell.1 ∈ chain.ids :=
    Chain.map_fst_cells chain none ▸ List.mem_map_of_mem held
  obtain ⟨way, led⟩ := reads.exists_way start member
  refine ⟨way, congrArg (Option.map NodeId.index) led, fun other ledToo => ?_⟩
  obtain ⟨id, found, same⟩ := Option.map_eq_some_iff.mp ledToo
  obtain rfl := NodeId.index_injective same
  exact reads.way_unique distinct start found led

end Trie

end PacketClassifier
