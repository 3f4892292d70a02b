import PacketClassifier.Proofs.Trie.Placement
import PacketClassifier.Trie.Search

/-!
# Reading a trie

What a walk, a search and a check find in a trie depends on the tree that the trie
represents.  In a well placed tree they are about the entries alone: a walk comes
across the entries whose conjunctions bear on the query, a search folds over the
entries whose conjunctions a packet satisfies, and a check finds no flaw.
-/

namespace PacketClassifier

open Trie

namespace Chain

/-- Every stored entry with its place, depth first. -/
def visits : Chain → List Visit
  | empty => []
  | node id _ own inner next =>
      visitsOf (.node id) own ++ inner.visits ++ next.visits

@[simp]
theorem map_entry_visitsOf (slot : TrieSlot) (entries : List EntryRef) :
    (visitsOf slot entries).map Visit.entry = entries := by
  apply List.ext_getElem
  · simp [visitsOf]
  · intro i _ _
    simp [visitsOf]

theorem map_entry_visits (chain : Chain) :
    chain.visits.map Visit.entry = chain.entries := by
  induction chain with
  | empty => rfl
  | node id stem own inner next innerIH nextIH =>
      simp [visits, entries, innerIH, nextIH]

/-- The places visited are those of the cells, in the same order. -/
theorem flatMap_visitsOf_cells (chain : Chain) (owner : Option NodeId) :
    (chain.cells owner).flatMap (fun cell => visitsOf (.node cell.1) cell.2.entries) =
      chain.visits := by
  induction chain generalizing owner with
  | empty => rfl
  | node id stem own inner next innerIH nextIH =>
      simp [cells, visits, innerIH, nextIH]

variable {chain : Chain} {path : List Match}

/-- An entry belongs under a path that starts with the one to its chain. -/
theorem WellPlaced.under (placed : chain.WellPlaced path) {entry : EntryRef}
    (member : entry ∈ chain.entries) :
    ∃ longer, (∀ stem ∈ path, stem ∈ longer) ∧ BelongsUnder entry longer := by
  induction chain generalizing path with
  | empty => exact absurd member List.not_mem_nil
  | node id stem own inner next innerIH nextIH =>
      rcases placed with ⟨ownPlaced, innerPlaced, nextPlaced⟩
      simp only [entries, List.mem_append] at member
      rcases member with (here | below) | behind
      · exact ⟨path ++ [stem], fun other => List.mem_append_left _,
          ownPlaced entry here⟩
      · rcases innerIH innerPlaced below with ⟨longer, prolongs, belongs⟩
        exact ⟨longer, fun other listed =>
          prolongs other (List.mem_append_left _ listed), belongs⟩
      · exact nextIH nextPlaced behind

/-- An entry at a node or below it belongs under a path through the stem of the node. -/
theorem WellPlaced.under_stem {id : NodeId} {stem : Match} {own : List EntryRef}
    {inner next : Chain}
    (placed : (node id stem own inner next).WellPlaced path) {entry : EntryRef}
    (member : entry ∈ own ++ inner.entries) :
    ∃ longer, stem ∈ longer ∧ BelongsUnder entry longer := by
  rcases placed with ⟨ownPlaced, innerPlaced, -⟩
  rcases List.mem_append.mp member with here | below
  · exact ⟨_, List.mem_append_right _ List.mem_cons_self, ownPlaced entry here⟩
  · rcases innerPlaced.under below with ⟨longer, prolongs, belongs⟩
    exact ⟨longer,
      prolongs stem (List.mem_append_right _ List.mem_cons_self), belongs⟩

/-- A walk that relates to an entry at a node or below it visits the stem of the node. -/
theorem WellPlaced.visits_stem {id : NodeId} {stem : Match} {own : List EntryRef}
    {inner next : Chain} {mode : WalkMode} {query : MatchSet}
    (placed : (node id stem own inner next).WellPlaced path) {entry : EntryRef}
    (member : entry ∈ own ++ inner.entries) (related : Relates mode query entry) :
    mode.Visits query stem := by
  obtain ⟨longer, listed, belongs⟩ := placed.under_stem member
  exact (belongs.visits_iff mode query).mpr related stem listed

/-- A packet that satisfies an entry at a node or below it satisfies the stem of the node. -/
theorem WellPlaced.admits_stem {id : NodeId} {stem : Match} {own : List EntryRef}
    {inner next : Chain} {packet : Packet}
    (placed : (node id stem own inner next).WellPlaced path) {entry : EntryRef}
    (member : entry ∈ own ++ inner.entries)
    (satisfied : entry.rule.matchSet.Admits packet) : stem.Admits packet := by
  obtain ⟨longer, listed, belongs⟩ := placed.under_stem member
  exact (belongs.admits_iff packet).mp satisfied stem listed

/-- An entry without matches is not stored at a node. -/
theorem WellPlaced.matchSet_ne_nil (placed : chain.WellPlaced path) {entry : EntryRef}
    (member : entry ∈ chain.entries) : entry.rule.matchSet.toList ≠ [] := by
  induction chain with
  | empty => exact absurd member List.not_mem_nil
  | node id stem own inner next innerIH nextIH =>
      rcases List.mem_append.mp member with here | behind
      · obtain ⟨longer, listed, belongs⟩ := placed.under_stem here
        obtain ⟨m, own, -⟩ := (belongsUnder_iff.mp belongs).2 stem listed
        exact List.ne_nil_of_mem own
      · exact nextIH placed.2.2 behind

theorem any_topPriority {own : List EntryRef} (sorted : sortedByPriority own = true)
    {entry : EntryRef} (member : entry ∈ own) :
    (topPriority own).any (entry.rule.priority ≤ ·) = true := by
  cases own with
  | nil => exact absurd member List.not_mem_nil
  | cons first rest => simpa [topPriority] using priority_le_head sorted member

/-- No entry of a chain has a higher priority than the chain. -/
theorem Sorted.any_highest (sorted : chain.Sorted) {entry : EntryRef}
    (member : entry ∈ chain.entries) :
    chain.highest.any (entry.rule.priority ≤ ·) = true := by
  induction chain with
  | empty => exact absurd member List.not_mem_nil
  | node id stem own inner next innerIH nextIH =>
      rcases sorted with ⟨ownSorted, innerSorted, nextSorted⟩
      simp only [entries, List.mem_append] at member
      simp only [highest, any_higher, Bool.or_eq_true]
      rcases member with (here | below) | behind
      · exact Or.inl (Or.inl (any_topPriority ownSorted here))
      · exact Or.inl (Or.inr (innerIH innerSorted below))
      · exact Or.inr (nextIH nextSorted behind)

/-- No entry at a node or below it has a higher priority than the node caches. -/
theorem any_higher_of_mem {own : List EntryRef} {inner : Chain}
    (ownSorted : sortedByPriority own = true) (innerSorted : inner.Sorted) {entry : EntryRef}
    (member : entry ∈ own ++ inner.entries) :
    (higher (topPriority own) inner.highest).any (entry.rule.priority ≤ ·) = true := by
  rw [any_higher, Bool.or_eq_true]
  rcases List.mem_append.mp member with here | below
  · exact Or.inl (any_topPriority ownSorted here)
  · exact Or.inr (innerSorted.any_highest below)

end Chain

namespace Trie

variable {trie : Trie} {chain : Chain} {path : List Match}
  {owner : Option NodeId} {fuel : Nat}

theorem Reads.node {id : NodeId} {stem : Match} {own : List EntryRef}
    {inner next : Chain}
    (reads : trie.Reads ((Chain.node id stem own inner next).cells owner)) :
    trie.node? id = some {
        stem, entries := own, inner := inner.head?, next := next.head?, owner
        highest := higher (topPriority own) inner.highest } ∧
      trie.Reads (inner.cells (some id)) ∧ trie.Reads (next.cells owner) := by
  refine ⟨reads _ List.mem_cons_self, fun cell member => ?_,
    fun cell member => ?_⟩
  · exact reads cell (List.mem_cons_of_mem _ (List.mem_append_left _ member))
  · exact reads cell (List.mem_cons_of_mem _ (List.mem_append_right _ member))

/-! ## Walks -/

/-- A walk comes across the entries whose conjunctions bear on the query. -/
theorem walkFrom_eq_filter {mode : WalkMode} {query : MatchSet}
    (reads : trie.Reads (chain.cells owner)) (placed : chain.WellPlaced path)
    (passed : ∀ stem ∈ path, mode.Visits query stem)
    (enough : chain.size ≤ fuel) :
    trie.walkFrom mode query fuel chain.head? =
      chain.visits.filter (fun visit => Relates mode query visit.entry) := by
  induction chain generalizing owner path fuel with
  | empty => cases fuel <;> rfl
  | node id stem own inner next innerIH nextIH =>
      simp only [Chain.size] at enough
      obtain ⟨fuel, rfl⟩ : ∃ less, fuel = less + 1 := ⟨fuel - 1, by omega⟩
      rcases reads.node with ⟨here, innerReads, nextReads⟩
      have parts := placed
      rcases parts with ⟨ownPlaced, innerPlaced, nextPlaced⟩
      simp only [walkFrom, Chain.head?_node, here, Chain.visits,
        List.filter_append]
      rw [nextIH nextReads nextPlaced passed (by omega)]
      congr 1
      by_cases visited : mode.Visits query stem
      · have further : ∀ other ∈ path ++ [stem], mode.Visits query other :=
          List.forall_mem_append.mpr ⟨passed, List.forall_mem_singleton.mpr visited⟩
        have ownRelate : ∀ visit ∈ visitsOf (.node id) own,
            decide (Relates mode query visit.entry) = true := by
          intro visit member
          have stored : visit.entry ∈ own :=
            Chain.map_entry_visitsOf (.node id) own ▸ List.mem_map_of_mem member
          exact decide_eq_true
            (((ownPlaced _ stored).visits_iff mode query).mp further)
        rw [if_pos visited, innerIH innerReads innerPlaced further (by omega),
          List.filter_eq_self.mpr ownRelate]
      · -- an entry that relates is under visited stems only
        rw [if_neg visited, ← List.filter_append, eq_comm,
          List.filter_eq_nil_iff]
        intro visit member related
        have stored : visit.entry ∈ own ++ inner.entries := by
          rw [← Chain.map_entry_visitsOf (.node id) own,
            ← Chain.map_entry_visits inner, ← List.map_append]
          exact List.mem_map_of_mem member
        exact visited (placed.visits_stem stored (of_decide_eq_true related))

/-! ## Searches -/

/-- The better one of `best` and another entry. -/
def better (best : Option EntryRef) (entry : EntryRef) : Option EntryRef :=
  if beats entry.rule.priority best then some entry else best

theorem foldl_better_of_not_beats {best : Option EntryRef}
    {entries : List EntryRef}
    (worse : ∀ entry ∈ entries, ¬ beats entry.rule.priority best = true) :
    entries.foldl better best = best := by
  induction entries with
  | nil => rfl
  | cons first rest ih =>
      have kept : better best first = best :=
        if_neg (worse first List.mem_cons_self)
      rw [List.foldl_cons, kept]
      exact ih (fun entry member => worse entry (List.mem_cons_of_mem _ member))

/-- Of sorted entries only the first can be the best one. -/
theorem foldl_better_sorted {own : List EntryRef}
    (sorted : sortedByPriority own = true) (best : Option EntryRef) :
    own.foldl better best =
      match own.head? with
      | none => best
      | some head => better best head := by
  cases own with
  | nil => rfl
  | cons first rest =>
      rw [List.foldl_cons]
      apply foldl_better_of_not_beats
      intro entry member
      have bound := priority_le_head sorted (List.mem_cons_of_mem _ member)
      unfold better
      split
      · simpa [beats] using bound
      · rename_i unbeaten
        cases best with
        | none => simp [beats] at unbeaten
        | some found =>
            simp only [beats, Option.all_some, decide_eq_true_eq,
              UInt32.not_lt] at *
            exact UInt32.le_trans bound unbeaten

theorem beats_of_le {lower upper : UInt32} {best : Option EntryRef}
    (below : lower ≤ upper) (won : beats lower best = true) :
    beats upper best = true := by
  cases best with
  | none => rfl
  | some found =>
      simp only [beats, Option.all_some, decide_eq_true_eq] at *
      exact UInt32.lt_of_lt_of_le won below

/-- A search finds the first best one among the entries that a packet satisfies. -/
theorem searchFrom_eq_foldl {packet : Packet}
    (reads : trie.Reads (chain.cells owner)) (placed : chain.WellPlaced path)
    (sorted : chain.Sorted) (passed : ∀ stem ∈ path, stem.Admits packet)
    (enough : chain.size ≤ fuel) (best : Option EntryRef) :
    trie.searchFrom packet fuel chain.head? best =
      (chain.entries.filter (·.rule.matchSet.Admits packet)).foldl better
        best := by
  induction chain generalizing owner path fuel best with
  | empty => cases fuel <;> rfl
  | node id stem own inner next innerIH nextIH =>
      simp only [Chain.size] at enough
      obtain ⟨fuel, rfl⟩ : ∃ less, fuel = less + 1 := ⟨fuel - 1, by omega⟩
      rcases reads.node with ⟨here, innerReads, nextReads⟩
      have parts := placed
      rcases parts with ⟨ownPlaced, innerPlaced, nextPlaced⟩
      rcases sorted with ⟨ownSorted, innerSorted, nextSorted⟩
      simp only [searchFrom, Chain.head?_node, here]
      rw [nextIH nextReads nextPlaced nextSorted passed (by omega)]
      simp only [Chain.entries, List.filter_append, List.foldl_append]
      congr 1
      by_cases entered : TrieNode.promises {
          stem, entries := own, inner := inner.head?, next := next.head?, owner
          highest := higher (topPriority own) inner.highest } best = true ∧
            stem.Admits packet
      · have further : ∀ other ∈ path ++ [stem], other.Admits packet :=
          List.forall_mem_append.mpr ⟨passed, List.forall_mem_singleton.mpr entered.2⟩
        have ownAdmitted : ∀ entry ∈ own,
            decide (entry.rule.matchSet.Admits packet) = true :=
          fun entry member => decide_eq_true
            (((ownPlaced entry member).admits_iff packet).mpr further)
        rw [if_pos entered, innerIH innerReads innerPlaced innerSorted further
          (by omega), List.filter_eq_self.mpr ownAdmitted,
          foldl_better_sorted ownSorted]
        rfl
      · -- a node that is passed over has no satisfied entry that beats the best one
        rw [if_neg entered, ← List.foldl_append, ← List.filter_append, eq_comm]
        apply foldl_better_of_not_beats
        intro entry member won
        rcases List.mem_filter.mp member with ⟨stored, satisfied⟩
        refine entered ⟨?_, placed.admits_stem stored (of_decide_eq_true satisfied)⟩
        obtain ⟨priority, cached, below⟩ := (Option.any_eq_true _ _).mp
          (Chain.any_higher_of_mem ownSorted innerSorted stored)
        exact (Option.any_eq_true _ _).mpr
          ⟨priority, cached, beats_of_le (of_decide_eq_true below) won⟩

/-! ## Checks -/

/-- A check of a well placed tree counts its entries and nodes and finds no flaw. -/
theorem checkFrom_eq_ok {stored reached : Nat}
    (reads : trie.Reads (chain.cells owner)) (placed : chain.WellPlaced path)
    (sorted : chain.Sorted) (room : reached + chain.size ≤ trie.nodes.size)
    (enough : chain.size ≤ fuel) :
    trie.checkFrom fuel chain.head? owner path stored reached =
      .ok ⟨chain.highest, stored + chain.entries.length,
        reached + chain.size⟩ := by
  induction chain generalizing owner path fuel stored reached with
  | empty => cases fuel <;> rfl
  | node id stem own inner next innerIH nextIH =>
      simp only [Chain.size] at enough room
      obtain ⟨fuel, rfl⟩ : ∃ less, fuel = less + 1 := ⟨fuel - 1, by omega⟩
      rcases reads.node with ⟨here, innerReads, nextReads⟩
      rcases placed with ⟨ownPlaced, innerPlaced, nextPlaced⟩
      rcases sorted with ⟨ownSorted, innerSorted, nextSorted⟩
      have noneMisplaced :
          own.find? (fun entry => ¬ BelongsUnder entry (path ++ [stem])) =
            none := by
        rw [List.find?_eq_none]
        intro entry member
        simpa using ownPlaced entry member
      have within : reached + 1 ≤ trie.nodes.size := by omega
      simp only [checkFrom, Chain.head?_node, here, require, within,
        ownSorted, noneMisplaced, decide_true, if_true, Chain.entries,
        Chain.highest, Chain.size]
      rw [innerIH innerReads innerPlaced innerSorted (by omega) (by omega)]
      simp only [bind, Except.bind, pure, Except.pure, topPriority,
        decide_true, if_true]
      rw [nextIH nextReads nextPlaced nextSorted (by omega) (by omega)]
      simp only [List.length_append, Except.ok.injEq, Census.mk.injEq, true_and]
      omega

end Trie

end PacketClassifier
