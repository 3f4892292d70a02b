import PacketClassifier.Matcher
import PacketClassifier.Proofs.Trie.Exchange

/-!
# Well-formed tries

A trie is well-formed if its nodes are those of a sorted and well placed tree, the
entries without matches are sorted, the size is right, and no two entries have the
same priority and conjunction.  Insertions and replacements keep it so.  What a
trie answers is then a matter of its entries in depth-first order alone.
-/

namespace PacketClassifier

namespace Trie

variable {trie grown : Trie} {chain : Chain} {entry old new : EntryRef}

/-! ## What a descent leaves alone -/

/-- What a trie keeps beside its nodes. -/
def books (trie : Trie) : List EntryRef × Nat :=
  (trie.rootEntries, trie.size)

theorem books_raiseFrom (priority : UInt32) (fuel : Nat)
    (cursor : Option NodeId) (trie : Trie) :
    (raiseFrom priority fuel cursor trie).books = trie.books := by
  induction fuel generalizing cursor trie with
  | zero => rfl
  | succ fuel ih =>
      cases cursor with
      | none => rfl
      | some id =>
          rw [raiseFrom]
          split
          · rfl
          · split
            · rfl
            · exact ih _ _

@[simp]
theorem books_raise (trie : Trie) (cursor : Option NodeId) (priority : UInt32) :
    (trie.raise cursor priority).books = trie.books :=
  books_raiseFrom _ _ _ _

@[simp]
theorem books_setLink (trie : Trie) (link : TrieLink) (target : NodeId) :
    (trie.setLink link target).books = trie.books := by
  cases link <;> rfl

@[simp]
theorem books_hang (trie : Trie) (link : TrieLink) (owner : Option NodeId)
    (stems : List Match) (entry : EntryRef) :
    (trie.hang link owner stems entry).books = trie.books :=
  (books_setLink _ _ _).trans (books_raise _ _ _)

@[simp]
theorem books_store (trie : Trie) (id : NodeId) (entry : EntryRef) :
    (trie.store id entry).books = trie.books :=
  books_raise _ _ _

@[simp]
theorem books_adopt (trie : Trie) (link : TrieLink) (id : NodeId)
    (node : TrieNode) (stem : Match) :
    (trie.adopt link id node stem).2.books = trie.books :=
  books_setLink _ _ _

/-- A descent changes nothing but nodes and links. -/
theorem books_place {fuel : Nat} {link : TrieLink} {owner : Option NodeId}
    {stems : List Match}
    (placed : place entry fuel link owner stems trie = some grown) :
    grown.books = trie.books := by
  induction fuel generalizing link owner stems trie with
  | zero => simp [place] at placed
  | succ fuel ih =>
      cases stems with
      | nil => simp [place] at placed
      | cons candidate rest =>
          simp only [place] at placed
          split at placed
          · obtain rfl := Option.some.inj placed
            exact books_hang _ _ _ _ _
          · split at placed
            · exact absurd placed.symm (Option.some_ne_none grown)
            · split at placed
              · exact ih placed
              · exact ih placed
              · split at placed
                · obtain rfl := Option.some.inj placed
                  exact books_store _ _ _
                · exact ih placed
              · split at placed
                · obtain rfl := Option.some.inj placed
                  exact (books_store _ _ _).trans (books_adopt _ _ _ _ _)
                · exact (ih placed).trans (books_adopt _ _ _ _ _)
              · obtain rfl := Option.some.inj placed
                exact (books_hang _ _ _ _ _).trans (books_adopt _ _ _ _ _)

/-! ## The invariant -/

theorem Represents.size_chain (represents : trie.Represents chain) :
    chain.size = trie.nodes.size := by
  rw [← Chain.length_cells chain none]
  exact represents.holds.length

/-- Every entry, depth first: those without matches, then those of the tree. -/
def inventory (trie : Trie) (chain : Chain) : List EntryRef :=
  trie.rootEntries ++ chain.entries

/-- The invariant of tries, with the tree that a trie represents. -/
structure WellFormed (trie : Trie) (chain : Chain) : Prop where
  represents : trie.Represents chain
  sorted : chain.Sorted
  placed : chain.WellPlaced []
  rootSorted : sortedByPriority trie.rootEntries = true
  rootPlaced : ∀ entry ∈ trie.rootEntries, entry.rule.matchSet.toList = []
  size : trie.size = (trie.inventory chain).length
  apart : ToldApart (trie.inventory chain)

theorem WellFormed.empty : Trie.empty.WellFormed .empty where
  represents := ⟨rfl, Holds.empty⟩
  sorted := trivial
  placed := trivial
  rootSorted := rfl
  rootPlaced := by simp [Trie.empty]
  size := rfl
  apart := List.nodup_nil

/-- What a check makes sure of: a well-formed trie, save that entries may be alike. -/
structure Coherent (trie : Trie) (chain : Chain) : Prop where
  represents : trie.Represents chain
  sorted : chain.Sorted
  placed : chain.WellPlaced []
  rootSorted : sortedByPriority trie.rootEntries = true
  rootPlaced : ∀ entry ∈ trie.rootEntries, entry.rule.matchSet.toList = []
  size : trie.size = (trie.inventory chain).length

theorem WellFormed.coherent (formed : trie.WellFormed chain) : trie.Coherent chain where
  represents := formed.represents
  sorted := formed.sorted
  placed := formed.placed
  rootSorted := formed.rootSorted
  rootPlaced := formed.rootPlaced
  size := formed.size

/-- The entries listed are those of the inventory, in another order. -/
theorem Coherent.entries_perm (coherent : trie.Coherent chain) :
    trie.entries.Perm (trie.inventory chain) := by
  have listed := coherent.represents.holds.entries
  rwa [Chain.flatMap_cells] at listed

theorem WellFormed.entries_perm (formed : trie.WellFormed chain) :
    trie.entries.Perm (trie.inventory chain) :=
  formed.coherent.entries_perm

/-! ## Insertions -/

/-- An insertion on the tree of a trie. -/
def plant (trie : Trie) (chain : Chain) (entry : EntryRef) : Chain :=
  chain.place entry trie.nodes.size entry.rule.matchSet.toList

/-- An entry without matches joins those at the root. -/
theorem WellFormed.insert_root (formed : trie.WellFormed chain)
    (fresh : entry.rule.key ∉ (trie.inventory chain).map (·.rule.key))
    (bare : entry.rule.matchSet.toList = []) :
    let grown : Trie :=
      { trie with
        rootEntries := insertByPriority trie.rootEntries entry
        size := trie.size + 1 }
    grown.WellFormed chain ∧
      Joins entry (trie.inventory chain) (grown.inventory chain) := by
  have joined := joins_insertByPriority entry trie.rootEntries
  have added := (joined.append chain.entries).perm
  refine ⟨?_, joined.append chain.entries⟩
  constructor
  · exact ⟨formed.represents.root, formed.represents.holds.positions,
      formed.represents.holds.read⟩
  · exact formed.sorted
  · exact formed.placed
  · exact sortedByPriority_insert formed.rootSorted entry
  · intro other member
    rcases List.mem_cons.mp (joined.perm.mem_iff.mp member) with rfl | older
    · exact bare
    · exact formed.rootPlaced other older
  · show trie.size + 1 =
      (insertByPriority trie.rootEntries entry ++ chain.entries).length
    rw [added.length_eq, List.length_cons, formed.size, inventory]
  · exact (formed.apart.cons fresh).perm added.symm

theorem WellFormed.insert_node (formed : trie.WellFormed chain)
    (fresh : entry.rule.key ∉ (trie.inventory chain).map (·.rule.key))
    (stems : entry.rule.matchSet.toList ≠ [])
    (represents : grown.Represents (trie.plant chain entry))
    (books : grown.books = trie.books) :
    let grown : Trie := { grown with size := grown.size + 1 }
    grown.WellFormed (trie.plant chain entry) ∧
      Joins entry (trie.inventory chain)
        (grown.inventory (trie.plant chain entry)) := by
  have root : grown.rootEntries = trie.rootEntries := congrArg Prod.fst books
  have accounted : grown.size = trie.size := congrArg Prod.snd books
  have joined : Joins entry (trie.inventory chain)
      (grown.rootEntries ++ (trie.plant chain entry).entries) := by
    rw [root]
    exact (Chain.joins_place entry _ chain stems).prepend trie.rootEntries
  have added := joined.perm
  refine ⟨?_, joined⟩
  constructor
  · exact ⟨represents.root, represents.holds.positions, represents.holds.read⟩
  · exact formed.sorted.place
  · exact formed.placed.place (.start entry)
  · exact root ▸ formed.rootSorted
  · exact root ▸ formed.rootPlaced
  · show grown.size + 1 =
      (grown.rootEntries ++ (trie.plant chain entry).entries).length
    rw [added.length_eq, List.length_cons, accounted, ← formed.size]
  · exact (formed.apart.cons fresh).perm added.symm

/-- A descent from the root stores the entry in the tree. -/
theorem Represents.place_root {stems : List Match}
    (represents : trie.Represents chain) (sorted : chain.Sorted)
    (ordered : InFieldOrder stems) (nonempty : stems ≠ [])
    (room : trie.nodes.size + stems.length < NodeId.capacity) :
    ∃ grown,
      Trie.place entry (trie.nodes.size + stems.length + 1) .root none stems
        trie = some grown ∧
      grown.Represents (chain.place entry trie.nodes.size stems) := by
  obtain ⟨candidate, rest, rfl⟩ := List.exists_cons_of_ne_nil nonempty
  have whole : trie.Represents (Context.root.plug chain) := represents
  have nodes := represents.size_chain
  exact whole.place sorted ordered room (by omega)

/-- An insertion succeeds where there is room, and adds the entry to the tree. -/
theorem WellFormed.insert (formed : trie.WellFormed chain)
    (fresh : entry.rule.key ∉ (trie.inventory chain).map (·.rule.key))
    (room : trie.nodes.size + entry.rule.matchSet.size + 1 ≤ maxNodes) :
    ∃ grown, trie.insert? entry = some grown ∧
      grown.WellFormed (trie.plant chain entry) ∧
      Joins entry (trie.inventory chain)
        (grown.inventory (trie.plant chain entry)) := by
  unfold Trie.insert?
  split
  · rename_i bare
    have unchanged : trie.plant chain entry = chain := by
      rw [plant, bare, Chain.place]
    rw [unchanged]
    exact ⟨_, rfl, formed.insert_root fresh bare⟩
  · rename_i nonempty
    have few : trie.nodes.size + entry.rule.matchSet.toList.length <
        NodeId.capacity := by
      rw [MatchSet.size, maxNodes] at room
      rw [NodeId.capacity]
      omega
    obtain ⟨grown, placed, represents⟩ := formed.represents.place_root
      formed.sorted entry.rule.matchSet.ordered nonempty few
    have grew := formed.insert_node fresh nonempty represents (books_place placed)
    exact ⟨_, by rw [placed]; rfl, grew⟩

/-! ## Walks -/

/-- A walk skips the entries without matches or what does not bear on the query. -/
theorem Coherent.visits_eq (coherent : trie.Coherent chain) (mode : WalkMode)
    (query : MatchSet) :
    trie.visits mode query =
      (if mode.VisitsRoot query then visitsOf .root trie.rootEntries else []) ++
        chain.visits.filter (fun visit => Relates mode query visit.entry) := by
  have nodes : chain.size ≤ trie.nodes.size := Nat.le_of_eq coherent.represents.size_chain
  have passed : ∀ stem ∈ ([] : List Match), mode.Visits query stem :=
    fun stem member => absurd member List.not_mem_nil
  rw [visits, coherent.represents.root,
    walkFrom_eq_filter coherent.represents.holds.read coherent.placed passed nodes]

theorem WellFormed.mem_walk (formed : trie.WellFormed chain) {mode : WalkMode}
    {query : MatchSet} {other : EntryRef} :
    other ∈ trie.walk mode query ↔
      mode.VisitsRoot query ∧ other ∈ trie.rootEntries ∨
        other ∈ chain.entries ∧ Relates mode query other := by
  have inTree : other ∈ (chain.visits.filter
      (fun visit => Relates mode query visit.entry)).map Visit.entry ↔
        other ∈ chain.entries ∧ Relates mode query other := by
    rw [← Chain.map_entry_visits, List.mem_map, List.mem_map]
    constructor
    · rintro ⟨visit, member, rfl⟩
      rcases List.mem_filter.mp member with ⟨stored, related⟩
      exact ⟨⟨visit, stored, rfl⟩, of_decide_eq_true related⟩
    · rintro ⟨⟨visit, stored, rfl⟩, related⟩
      exact ⟨visit, List.mem_filter.mpr ⟨stored, decide_eq_true related⟩, rfl⟩
  rw [walk, formed.coherent.visits_eq, List.map_append, List.mem_append, inTree]
  by_cases rootVisited : mode.VisitsRoot query
  · rw [if_pos rootVisited, Chain.map_entry_visitsOf]
    simp only [rootVisited, true_and]
  · rw [if_neg rootVisited]
    simp only [rootVisited, List.map_nil, List.not_mem_nil, false_and]

/-- An overlapping walk comes across the entries whose conjunctions intersect. -/
theorem WellFormed.mem_walk_overlapping (formed : trie.WellFormed chain)
    {query : MatchSet} {other : EntryRef} :
    other ∈ trie.walk .overlapping query ↔
      other ∈ trie.inventory chain ∧ other.rule.matchSet.Intersects query := by
  rw [formed.mem_walk, inventory, List.mem_append]
  constructor
  · rintro (⟨-, atRoot⟩ | ⟨inTree, common⟩)
    · exact ⟨Or.inl atRoot, MatchSet.forall_of_bare (formed.rootPlaced other atRoot)⟩
    · exact ⟨Or.inr inTree, common⟩
  · rintro ⟨atRoot | inTree, common⟩
    · exact Or.inl ⟨Or.inl rfl, atRoot⟩
    · exact Or.inr ⟨inTree, common⟩

/--
An enclosing walk comes across the entries whose conjunctions are wider; those without matches
are not among them unless the query has none either.
-/
theorem WellFormed.mem_walk_enclosing_iff (formed : trie.WellFormed chain)
    {query : MatchSet} {other : EntryRef} :
    other ∈ trie.walk .enclosing query ↔
      other ∈ trie.inventory chain ∧ query.IsSubmatch other.rule.matchSet ∧
        (query.toList = [] ↔ other.rule.matchSet.toList = []) := by
  rw [formed.mem_walk, inventory, List.mem_append]
  constructor
  · rintro (⟨visited, atRoot⟩ | ⟨inTree, tighter⟩)
    · have bare := formed.rootPlaced other atRoot
      have free : query.toList = [] := visited.resolve_left (by simp)
      exact ⟨Or.inl atRoot, MatchSet.forall_of_bare bare, iff_of_true free bare⟩
    · have proper := formed.placed.matchSet_ne_nil inTree
      obtain ⟨m, member⟩ := List.exists_mem_of_ne_nil _ proper
      obtain ⟨own, found, -⟩ := tighter m member
      have constrains := List.ne_nil_of_mem (MatchSet.mem_of_get? found).1
      exact ⟨Or.inr inTree, tighter, iff_of_false constrains proper⟩
  · rintro ⟨atRoot | inTree, tighter, alike⟩
    · exact Or.inl ⟨Or.inr (alike.mpr (formed.rootPlaced other atRoot)), atRoot⟩
    · exact Or.inr ⟨inTree, tighter⟩

/-- An enclosing walk comes across every entry that has the conjunction itself. -/
theorem WellFormed.mem_walk_enclosing (formed : trie.WellFormed chain)
    (other : EntryRef) :
    other ∈ trie.walk .enclosing other.rule.matchSet ↔
      other ∈ trie.inventory chain := by
  rw [formed.mem_walk_enclosing_iff]
  exact and_iff_left ⟨.refl _, Iff.rfl⟩

/-! ## Replacements -/

/-- The place found for an installed entry is one where it is stored. -/
theorem WellFormed.locate (formed : trie.WellFormed chain)
    (member : old ∈ trie.inventory chain) :
    ∃ slot position, trie.locate? old = some (slot, position) ∧
      match slot with
      | .root => trie.rootEntries[position]? = some old
      | .node id => ∃ cell ∈ chain.cells none,
          cell.1 = id ∧ cell.2.entries[position]? = some old := by
  have walked := (formed.mem_walk_enclosing old).mpr member
  obtain ⟨witness, listed, named⟩ := List.mem_map.mp walked
  cases found : (trie.visits .enclosing old.rule.matchSet).find?
      (fun visit => visit.entry = old) with
  | none =>
      exact absurd (decide_eq_true named)
        (List.find?_eq_none.mp found witness listed)
  | some visit =>
      have right : visit.entry = old := by simpa using List.find?_some found
      have visited := List.mem_of_find?_eq_some found
      refine ⟨visit.slot, visit.position, by rw [locate?, found]; rfl, ?_⟩
      rw [formed.coherent.visits_eq, List.mem_append] at visited
      rcases visited with atRoot | inTree
      · split at atRoot
        · obtain ⟨slot, place⟩ := mem_visitsOf.mp atRoot
          rw [slot]
          exact right ▸ place
        · exact absurd atRoot List.not_mem_nil
      · have stored := (List.mem_filter.mp inTree).1
        obtain ⟨cell, held, slot, place⟩ := (Chain.mem_visits_iff none).mp stored
        rw [slot]
        exact ⟨cell, held, rfl, right ▸ place⟩

/-- A replacement exchanges the entry where it is stored, at the root or in the tree. -/
theorem WellFormed.represents_replace (formed : trie.WellFormed chain)
    (member : old ∈ trie.inventory chain)
    (same : new.rule.key = old.rule.key) :
    (trie.replace old new).Represents (chain.exchange old new) ∧
      (trie.replace old new).books =
        (trie.rootEntries.map (old.exchange new), trie.size) := by
  have parts := formed.apart.nodup
  rw [inventory, List.nodup_append] at parts
  rcases parts with ⟨rootDistinct, treeDistinct, separate⟩
  obtain ⟨slot, position, located, stored⟩ := formed.locate member
  rw [Trie.replace, located]
  cases slot with
  | root =>
      have absent : old ∉ chain.entries := fun inTree =>
        separate old (List.mem_of_getElem? stored) old inTree rfl
      -- the entry is stored once, so the tree stays as it is
      rw [Chain.exchange_of_not_mem absent,
        ← set_eq_map_exchange rootDistinct stored]
      exact ⟨⟨formed.represents.root, formed.represents.holds.positions,
        formed.represents.holds.read⟩, rfl⟩
  | node id =>
      obtain ⟨cell, held, rfl, place⟩ := stored
      have inTree : old ∈ chain.entries := by
        rw [← Chain.flatMap_cells chain none]
        exact List.mem_flatMap.mpr ⟨cell, held, List.mem_of_getElem? place⟩
      have absent : old ∉ trie.rootEntries := fun atRoot =>
        separate old atRoot old inTree rfl
      rw [map_exchange_of_not_mem absent]
      refine ⟨⟨?_, ?_⟩, rfl⟩
      · rw [Chain.head?_exchange]
        exact formed.represents.root
      · rw [Chain.cells_exchange same]
        refine formed.represents.holds.exchange held ?_ place
        rwa [Chain.flatMap_cells]

/-- A replacement exchanges an installed entry and changes nothing else. -/
theorem WellFormed.replace (formed : trie.WellFormed chain)
    (member : old ∈ trie.inventory chain)
    (same : new.rule.key = old.rule.key) :
    (trie.replace old new).WellFormed (chain.exchange old new) ∧
      (trie.replace old new).inventory (chain.exchange old new) =
        (trie.inventory chain).map (old.exchange new) := by
  obtain ⟨represents, books⟩ := formed.represents_replace member same
  have root : (trie.replace old new).rootEntries =
      trie.rootEntries.map (old.exchange new) := congrArg Prod.fst books
  have accounted : (trie.replace old new).size = trie.size :=
    congrArg Prod.snd books
  have mapped : (trie.replace old new).inventory (chain.exchange old new) =
      (trie.inventory chain).map (old.exchange new) := by
    rw [inventory, root, Chain.entries_exchange, ← List.map_append, inventory]
  refine ⟨?_, mapped⟩
  constructor
  · exact represents
  · exact formed.sorted.exchange same
  · exact formed.placed.exchange same
  · rw [root]
    exact sortedByPriority_exchange same formed.rootSorted
  · rw [root]
    intro entry listed
    obtain ⟨before, atRoot, rfl⟩ := List.mem_map.mp listed
    rw [matchSet_exchange same]
    exact formed.rootPlaced before atRoot
  · rw [accounted, mapped, List.length_map]
    exact formed.size
  · rw [mapped]
    exact formed.apart.exchange same

/-! ## Searches and checks -/

/-- A search finds the first best one among the entries that a packet satisfies. -/
theorem Coherent.searchFrom_eq (coherent : trie.Coherent chain) (packet : Packet) {fuel : Nat}
    (enough : trie.nodes.size ≤ fuel) :
    trie.searchFrom packet fuel trie.root trie.rootEntries.head? =
      ((trie.inventory chain).filter
        (·.rule.matchSet.Admits packet)).foldl better none := by
  have nodes : chain.size ≤ fuel := coherent.represents.size_chain ▸ enough
  have passed : ∀ stem ∈ ([] : List Match), stem.Admits packet :=
    fun stem member => absurd member List.not_mem_nil
  have admitted : ∀ entry ∈ trie.rootEntries,
      decide (entry.rule.matchSet.Admits packet) = true := by
    intro entry atRoot
    exact decide_eq_true (MatchSet.forall_of_bare (coherent.rootPlaced entry atRoot))
  have start : trie.rootEntries.head? = trie.rootEntries.foldl better none := by
    rw [foldl_better_sorted coherent.rootSorted]
    cases trie.rootEntries with
    | nil => rfl
    | cons first rest => rfl
  rw [coherent.represents.root,
    searchFrom_eq_foldl coherent.represents.holds.read coherent.placed coherent.sorted
      passed nodes, start, inventory, List.filter_append, List.foldl_append,
    List.filter_eq_self.mpr admitted]

theorem Coherent.find?_eq (coherent : trie.Coherent chain) (packet : Packet) :
    trie.find? packet =
      ((trie.inventory chain).filter
        (·.rule.matchSet.Admits packet)).foldl better none :=
  coherent.searchFrom_eq packet (Nat.le_refl _)

theorem Coherent.check_eq_ok (coherent : trie.Coherent chain) :
    trie.check = .ok () := by
  have nodes := coherent.represents.size_chain
  have bare : trie.rootEntries.all (·.rule.matchSet.toList.isEmpty) = true := by
    rw [List.all_eq_true]
    intro entry atRoot
    rw [coherent.rootPlaced entry atRoot]
    rfl
  have checked : trie.checkFrom (trie.nodes.size + 1) chain.head? none []
      trie.rootEntries.length 0 =
        .ok ⟨chain.highest, trie.rootEntries.length + chain.entries.length,
          0 + chain.size⟩ :=
    checkFrom_eq_ok coherent.represents.holds.read coherent.placed coherent.sorted
      (by omega) (by omega)
  have accounted := coherent.size
  rw [inventory, List.length_append] at accounted
  rw [Trie.check, coherent.represents.root, checked]
  simp only [require, coherent.rootSorted, bare, accounted, nodes, Nat.zero_add,
    Bool.and_self, bind, Except.bind, decide_true, if_true]

theorem WellFormed.check_eq_ok (formed : trie.WellFormed chain) :
    trie.check = .ok () :=
  formed.coherent.check_eq_ok

end Trie

end PacketClassifier
