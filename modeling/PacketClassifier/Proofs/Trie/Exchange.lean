import PacketClassifier.Proofs.Planning
import PacketClassifier.Proofs.Trie.Reading

/-!
# Exchanging an entry

A replacement puts an entry in the place of another one with the same priority and
conjunction.  In the tree that is a map over all entries, because the entry that
gives way is stored only once; everything else about the tree stays as it is.
-/

namespace PacketClassifier

open Trie

variable {old new : EntryRef}

theorem topPriority_exchange (same : new.rule.key = old.rule.key)
    (entries : List EntryRef) :
    topPriority (entries.map (old.exchange new)) = topPriority entries := by
  cases entries with
  | nil => rfl
  | cons first rest => exact congrArg some (priority_exchange same first)

theorem belongsUnder_exchange (same : new.rule.key = old.rule.key)
    {entry : EntryRef} {path : List Match} (belongs : BelongsUnder entry path) :
    BelongsUnder (old.exchange new entry) path := by
  unfold BelongsUnder at *
  rwa [matchSet_exchange same]

namespace Chain

/-- Put `new` in the place of `old` wherever that is. -/
def exchange (old new : EntryRef) : Chain → Chain
  | empty => empty
  | node id stem own inner next =>
      node id stem (own.map (old.exchange new)) (inner.exchange old new)
        (next.exchange old new)

variable {chain : Chain} {path : List Match}

@[simp]
theorem head?_exchange (old new : EntryRef) (chain : Chain) :
    (chain.exchange old new).head? = chain.head? := by
  cases chain with
  | empty => rfl
  | node id stem own inner next => rfl

theorem highest_exchange (same : new.rule.key = old.rule.key) (chain : Chain) :
    (chain.exchange old new).highest = chain.highest := by
  induction chain with
  | empty => rfl
  | node id stem own inner next innerIH nextIH =>
      simp only [exchange, highest, topPriority_exchange same, innerIH, nextIH]

theorem entries_exchange (old new : EntryRef) (chain : Chain) :
    (chain.exchange old new).entries =
      chain.entries.map (old.exchange new) := by
  induction chain with
  | empty => rfl
  | node id stem own inner next innerIH nextIH =>
      simp only [exchange, entries, List.map_append, innerIH, nextIH]

theorem exchange_of_not_mem (absent : old ∉ chain.entries) :
    chain.exchange old new = chain := by
  induction chain with
  | empty => rfl
  | node id stem own inner next innerIH nextIH =>
      simp only [entries, List.mem_append, not_or] at absent
      rw [exchange, map_exchange_of_not_mem absent.1.1, innerIH absent.1.2,
        nextIH absent.2]

theorem Sorted.exchange (same : new.rule.key = old.rule.key)
    (sorted : chain.Sorted) : (chain.exchange old new).Sorted := by
  induction chain with
  | empty => trivial
  | node id stem own inner next innerIH nextIH =>
      rcases sorted with ⟨ownSorted, innerSorted, nextSorted⟩
      exact ⟨sortedByPriority_exchange same ownSorted, innerIH innerSorted,
        nextIH nextSorted⟩

theorem WellPlaced.exchange (same : new.rule.key = old.rule.key)
    (placed : chain.WellPlaced path) :
    (chain.exchange old new).WellPlaced path := by
  induction chain generalizing path with
  | empty => trivial
  | node id stem own inner next innerIH nextIH =>
      rcases placed with ⟨ownPlaced, innerPlaced, nextPlaced⟩
      refine ⟨?_, innerIH innerPlaced, nextIH nextPlaced⟩
      intro entry member
      obtain ⟨before, stored, rfl⟩ := List.mem_map.mp member
      exact belongsUnder_exchange same (ownPlaced before stored)

end Chain

/-- What an exchange makes of a cell. -/
def Cell.exchange (old new : EntryRef) (cell : Cell) : Cell :=
  (cell.1, { cell.2 with entries := cell.2.entries.map (old.exchange new) })

theorem Cell.exchange_of_not_mem {cell : Cell} (absent : old ∉ cell.2.entries) :
    cell.exchange old new = cell := by
  rw [Cell.exchange, map_exchange_of_not_mem absent]

theorem Chain.cells_exchange (same : new.rule.key = old.rule.key) (chain : Chain)
    (owner : Option NodeId) :
    (chain.exchange old new).cells owner =
      (chain.cells owner).map (Cell.exchange old new) := by
  induction chain generalizing owner with
  | empty => rfl
  | node id stem own inner next innerIH nextIH =>
      simp only [exchange, cells, head?_exchange, highest_exchange same,
        topPriority_exchange same, innerIH, nextIH, List.map_cons,
        List.map_append, Cell.exchange]

theorem mem_visitsOf {slot : TrieSlot} {entries : List EntryRef} {visit : Visit} :
    visit ∈ visitsOf slot entries ↔
      visit.slot = slot ∧ entries[visit.position]? = some visit.entry := by
  rw [visitsOf, List.mem_mapIdx]
  constructor
  · rintro ⟨position, inside, rfl⟩
    exact ⟨rfl, List.getElem?_eq_getElem inside⟩
  · rintro ⟨rfl, found⟩
    obtain ⟨inside, here⟩ := List.getElem?_eq_some_iff.mp found
    exact ⟨visit.position, inside, by rw [here]⟩

/-- A visit tells where its entry is stored, and every stored entry is visited. -/
theorem Chain.mem_visits_iff {chain : Chain} {visit : Visit} (owner : Option NodeId) :
    visit ∈ chain.visits ↔
      ∃ cell ∈ chain.cells owner, visit.slot = .node cell.1 ∧
        cell.2.entries[visit.position]? = some visit.entry := by
  rw [← flatMap_visitsOf_cells chain owner, List.mem_flatMap]
  simp only [mem_visitsOf]

namespace Trie

variable {trie : Trie} {chain : Chain} {cells : List Cell}

/-- Where entries are distinct, an exchange changes a single cell. -/
theorem Holds.exchange {cell : Cell} {position : Nat}
    (holds : trie.Holds cells) (stored : cell ∈ cells)
    (distinct : (cells.flatMap (fun cell => cell.2.entries)).Nodup)
    (found : cell.2.entries[position]? = some old) :
    (trie.modifyNode cell.1 (fun node =>
      { node with entries := node.entries.set position new })).Holds
        (cells.map (Cell.exchange old new)) := by
  have front := List.perm_cons_erase stored
  have apart := (front.flatMap_right _).nodup_iff.mp distinct
  rw [List.flatMap_cons, List.nodup_append] at apart
  rcases apart with ⟨ownDistinct, -, disjoint⟩
  have member : old ∈ cell.2.entries := List.mem_of_getElem? found
  have others : (cells.erase cell).map (Cell.exchange old new) =
      cells.erase cell := by
    rw [List.map_congr_left (g := id), List.map_id]
    intro other listed
    apply Cell.exchange_of_not_mem
    intro again
    exact disjoint old member old
      (List.mem_flatMap.mpr ⟨other, listed, again⟩) rfl
  refine ((holds.perm front).modifyNode _).perm ?_
  rw [set_eq_map_exchange ownDistinct found, ← others]
  exact (front.map (Cell.exchange old new)).symm

end Trie

end PacketClassifier
