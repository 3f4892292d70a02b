import PacketClassifier.Proofs.Trie.Runs
import PacketClassifier.Trie.WalkSteps

/-!
# Walks come to an end

A walk that is taken step by step passes through every chain on its way once: from the first
node on it comes across what a recursive walk of the chain does, and then stands behind the
chain.  So it comes across the entries that bear on the query and ends, after a number of steps
that the size of the trie bounds.
-/

namespace PacketClassifier

namespace Trie

open WalkState

variable {trie : Trie} {chain : Chain} {mode : WalkMode} {query : MatchSet}
  {installed : List EntryRef}

/-! ## Steps in a row -/

theorem walkSteps_succ (steps : Nat) (state : WalkState) :
    trie.walkSteps mode query (steps + 1) state =
      ((trie.walkStep mode query state).1.toList ++
          (trie.walkSteps mode query steps (trie.walkStep mode query state).2).1,
        (trie.walkSteps mode query steps (trie.walkStep mode query state).2).2) := rfl

/-- A walk that is interrupted goes on as if it had not been. -/
theorem walkSteps_add (first second : Nat) (state : WalkState) :
    trie.walkSteps mode query (first + second) state =
      ((trie.walkSteps mode query first state).1 ++
          (trie.walkSteps mode query second (trie.walkSteps mode query first state).2).1,
        (trie.walkSteps mode query second (trie.walkSteps mode query first state).2).2) := by
  induction first generalizing state with
  | zero => simp [walkSteps]
  | succ first ih =>
      rw [Nat.add_right_comm, walkSteps_succ, walkSteps_succ, ih]
      simp

/-- A walk that has ended comes across nothing more. -/
theorem walkSteps_ended (steps : Nat) :
    trie.walkSteps mode query steps .ended = ([], .ended) := by
  induction steps with
  | zero => rfl
  | succ steps ih => rw [walkSteps_succ, walkStep, ih, Option.toList_none, List.nil_append]

/-- The walk goes from one place to another in so many steps at most, and comes across `met`. -/
def Passes (trie : Trie) (mode : WalkMode) (query : MatchSet) (limit : Nat)
    (state : WalkState) (met : List Visit) (last : WalkState) : Prop :=
  ∃ steps ≤ limit, trie.walkSteps mode query steps state = (met, last)

theorem Passes.refl (state : WalkState) : trie.Passes mode query 0 state [] state :=
  ⟨0, Nat.le_refl 0, rfl⟩

theorem Passes.trans {limit limit' : Nat} {state middle last : WalkState}
    {met met' : List Visit} (first : trie.Passes mode query limit state met middle)
    (second : trie.Passes mode query limit' middle met' last) :
    trie.Passes mode query (limit + limit') state (met ++ met') last := by
  obtain ⟨steps, few, passed⟩ := first
  obtain ⟨steps', few', passed'⟩ := second
  refine ⟨steps + steps', Nat.add_le_add few few', ?_⟩
  rw [walkSteps_add, passed, passed']

theorem Passes.mono {limit limit' : Nat} {state last : WalkState} {met : List Visit}
    (passes : trie.Passes mode query limit state met last) (wider : limit ≤ limit') :
    trie.Passes mode query limit' state met last := by
  obtain ⟨steps, few, passed⟩ := passes
  exact ⟨steps, Nat.le_trans few wider, passed⟩

theorem Passes.step {state last : WalkState} {met : Option Visit}
    (stepped : trie.walkStep mode query state = (met, last)) :
    trie.Passes mode query 1 state met.toList last :=
  ⟨1, Nat.le_refl 1, by simp [walkSteps, stepped]⟩

/-! ## Passing entries -/

theorem drop_visitsOf (slot : TrieSlot) {entries : List EntryRef} {position : Nat}
    {entry : EntryRef} (here : entries[position]? = some entry) :
    (visitsOf slot entries).drop position =
      { slot, position, entry } :: (visitsOf slot entries).drop (position + 1) := by
  obtain ⟨inside, rfl⟩ := List.getElem?_eq_some_iff.mp here
  have within : position < (visitsOf slot entries).length := by
    simpa [visitsOf] using inside
  rw [List.drop_eq_getElem_cons within]
  simp [visitsOf]

/-- The entries of a slot are come across one by one. -/
theorem passes_entries {slot : TrieSlot} {entries : List EntryRef} {further : WalkState}
    (stepped : ∀ position, trie.walkStep mode query (before slot position) =
      meet slot entries position further) :
    trie.Passes mode query (entries.length + 1) (before slot 0) (visitsOf slot entries)
      further := by
  have from_position (left position : Nat) (rest : position + left = entries.length) :
      trie.Passes mode query (left + 1) (before slot position)
        ((visitsOf slot entries).drop position) further := by
    induction left generalizing position with
    | zero =>
        have behind : entries[position]? = none := List.getElem?_eq_none (by omega)
        have nothing : (visitsOf slot entries).drop position = [] := by
          simpa [visitsOf] using Nat.le_of_eq rest.symm
        rw [nothing]
        exact Passes.step ((stepped position).trans (by rw [meet, behind]))
    | succ left ih =>
        have inside : position < entries.length := by omega
        have here : entries[position]? = some entries[position] :=
          List.getElem?_eq_getElem inside
        have met := Passes.step ((stepped position).trans (by rw [meet, here]))
        rw [drop_visitsOf slot here, Nat.add_comm]
        exact met.trans (ih (position + 1) (by omega))
  exact from_position entries.length 0 (Nat.zero_add _)

/-! ## Passing chains -/

/-- A chain is passed once, and what is below the nodes that are not visited is skipped. -/
theorem passes_chain {owner : Option NodeId} {fuel : Nat}
    (reads : trie.Reads (chain.cells owner)) (enough : chain.size ≤ fuel) :
    trie.Passes mode query (chain.entries.length + 2 * chain.size)
      (enter chain.head? owner) (trie.walkFrom mode query fuel chain.head?)
      (enter none owner) := by
  induction chain generalizing owner fuel with
  | empty =>
      cases fuel <;> exact Passes.refl _
  | node id stem own inner next innerIH nextIH =>
      simp only [Chain.size] at enough
      obtain ⟨fuel, rfl⟩ : ∃ less, fuel = less + 1 := ⟨fuel - 1, by omega⟩
      rcases reads.node with ⟨here, innerReads, nextReads⟩
      -- at the end of the inner chain the walk is back at its owner, which is this node
      have left : trie.walkStep mode query (leaving id) = (none, enter next.head? owner) := by
        simp [walkStep, here]
      have nextPassed := (Passes.step left).trans
        (nextIH nextReads (show next.size ≤ fuel by omega))
      simp only [walkFrom, Chain.head?_node, here, Chain.entries, Chain.size,
        List.length_append]
      by_cases visited : mode.Visits query stem
      · have ownPassed : trie.Passes mode query (own.length + 1) (before (.node id) 0)
            (visitsOf (.node id) own) (enter inner.head? (some id)) :=
          passes_entries fun position => by simp [walkStep, here, visited]
        have innerPassed := innerIH innerReads (show inner.size ≤ fuel by omega)
        rw [if_pos visited]
        exact ((ownPassed.trans innerPassed).trans nextPassed).mono (by omega)
      · have skipped : trie.walkStep mode query (before (.node id) 0) =
            (none, leaving id) := by
          simp [walkStep, here, visited]
        rw [if_neg visited]
        exact ((Passes.step skipped).trans nextPassed).mono (by omega)

/-- A walk comes across what a recursive one does, and then it has ended. -/
theorem Coherent.passes_visits (coherent : trie.Coherent chain) (mode : WalkMode)
    (query : MatchSet) :
    trie.Passes mode query (trie.size + 2 * trie.nodes.size + 1) .start
      (trie.visits mode query) .ended := by
  have nodes := coherent.represents.size_chain
  have stored : trie.size = trie.rootEntries.length + chain.entries.length := by
    rw [coherent.size, inventory, List.length_append]
  have chainPassed : trie.Passes mode query (chain.entries.length + 2 * chain.size)
      (enter trie.root none) (trie.walkFrom mode query trie.nodes.size trie.root) .ended := by
    rw [coherent.represents.root]
    exact passes_chain coherent.represents.holds.read (Nat.le_of_eq nodes)
  have rootPassed : trie.Passes mode query (trie.rootEntries.length + 1) .start
      (if mode.VisitsRoot query then visitsOf .root trie.rootEntries else [])
      (enter trie.root none) := by
    by_cases visited : mode.VisitsRoot query
    · rw [if_pos visited]
      exact passes_entries fun position => by simp [walkStep, visited]
    · have skipped : trie.walkStep mode query .start = (none, enter trie.root none) := by
        simp [walkStep, start, visited]
      rw [if_neg visited]
      exact (Passes.step skipped).mono (by omega)
  exact (rootPassed.trans chainPassed).mono (by omega)

theorem Coherent.walkSteps_start (coherent : trie.Coherent chain) (mode : WalkMode)
    (query : MatchSet) {steps : Nat} (enough : trie.size + 2 * trie.nodes.size + 1 ≤ steps) :
    trie.walkSteps mode query steps .start = (trie.visits mode query, .ended) := by
  obtain ⟨used, few, passed⟩ := coherent.passes_visits mode query
  obtain ⟨left, rfl⟩ := Nat.exists_eq_add_of_le (Nat.le_trans few enough)
  rw [walkSteps_add, passed, walkSteps_ended, List.append_nil]

/-! ## What a walk comes across -/

theorem WellFormed.nodup_walk (formed : trie.WellFormed chain) (mode : WalkMode)
    (query : MatchSet) : (trie.walk mode query).Nodup := by
  have listed : (trie.walk mode query).Sublist (trie.inventory chain) := by
    rw [walk, formed.coherent.visits_eq, List.map_append, inventory,
      ← Chain.map_entry_visits]
    refine List.Sublist.append ?_ (List.filter_sublist.map _)
    split
    · rw [Chain.map_entry_visitsOf]
    · exact List.nil_sublist _
  exact listed.nodup formed.apart.nodup

/--
A walk over what may overlap a conjunction ends after a number of steps that the size of the
trie bounds.  It comes across the installed entries whose conjunctions intersect it, those
without matches included, each of them once.
-/
theorem Reaches.walk_overlapping (reached : trie.Reaches installed) (query : MatchSet) :
    (∀ steps, trie.size + 2 * trie.nodes.size + 1 ≤ steps →
      (trie.walkSteps .overlapping query steps .start).1.map Visit.entry =
          trie.walk .overlapping query ∧
        (trie.walkSteps .overlapping query steps .start).2 = .ended) ∧
      (trie.walk .overlapping query).Nodup ∧
      (∀ entry, entry ∈ trie.walk .overlapping query ↔
        entry ∈ installed ∧ entry.rule.matchSet.Intersects query) ∧
      ∀ entry ∈ installed, entry.rule.matchSet.toList = [] →
        entry ∈ trie.walk .overlapping query := by
  obtain ⟨chain, formed, same⟩ := reached.formed
  have met (entry : EntryRef) : entry ∈ trie.walk .overlapping query ↔
      entry ∈ installed ∧ entry.rule.matchSet.Intersects query := by
    rw [formed.mem_walk_overlapping, same.mem_iff]
  refine ⟨fun steps enough => ?_, formed.nodup_walk .overlapping query, met, ?_⟩
  · rw [formed.coherent.walkSteps_start .overlapping query enough]
    exact ⟨rfl, rfl⟩
  · intro entry member bare
    refine (met entry).mpr ⟨member, ?_⟩
    intro m listed
    rw [bare] at listed
    exact absurd listed List.not_mem_nil

/-- What may overlap the host is the host and its network, found within seven steps. -/
theorem sample_walk_overlapping :
    sample.Reaches [host, subnet] ∧
      (sample.walkSteps .overlapping host.rule.matchSet 7 .start).2 = .ended ∧
      (sample.walk .overlapping host.rule.matchSet).Perm [host, subnet] := by
  obtain ⟨ends, distinct, met, -⟩ := reaches_sample.walk_overlapping host.rule.matchSet
  have both : ∀ entry ∈ [host, subnet],
      entry.rule.matchSet.Intersects host.rule.matchSet := by decide
  refine ⟨reaches_sample, (ends 7 (by decide)).2,
    (List.perm_ext_iff_of_nodup distinct (by decide)).mpr ?_⟩
  exact fun entry => (met entry).trans (and_iff_left_of_imp (both entry))

/-! ## Where an entry is found -/

/-- The entries kept in a slot. -/
def kept (trie : Trie) : TrieSlot → List EntryRef
  | .root => trie.rootEntries
  | .node id => (trie.node? id).elim [] TrieNode.entries

theorem WellFormed.kept_of_locate? (formed : trie.WellFormed chain) {entry : EntryRef}
    (member : entry ∈ trie.inventory chain) :
    ∃ slot position, trie.locate? entry = some (slot, position) ∧
      (trie.kept slot)[position]? = some entry := by
  obtain ⟨slot, position, located, stored⟩ := formed.locate member
  refine ⟨slot, position, located, ?_⟩
  cases slot with
  | root => exact stored
  | node id =>
      obtain ⟨cell, held, rfl, place⟩ := stored
      have here : trie.node? cell.1 = some cell.2 := formed.represents.holds.read cell held
      rw [kept, here]
      exact place

/--
A walk over what encloses a conjunction ends after a number of steps that the size of the
trie bounds.  It comes across the installed entries with matches that the conjunction is at
least as narrow as, each of them once; if the conjunction has no matches, across those without
matches instead.  So it comes across every entry with that conjunction, and the place found for
an entry is where the entry is kept.
-/
theorem Reaches.walk_enclosing (reached : trie.Reaches installed) (query : MatchSet) :
    (∀ steps, trie.size + 2 * trie.nodes.size + 1 ≤ steps →
      (trie.walkSteps .enclosing query steps .start).1.map Visit.entry =
          trie.walk .enclosing query ∧
        (trie.walkSteps .enclosing query steps .start).2 = .ended) ∧
      (trie.walk .enclosing query).Nodup ∧
      (query.toList = [] → ∀ entry, entry ∈ trie.walk .enclosing query ↔
        entry ∈ installed ∧ entry.rule.matchSet.toList = []) ∧
      (query.toList ≠ [] → ∀ entry, entry ∈ trie.walk .enclosing query ↔
        entry ∈ installed ∧ entry.rule.matchSet.toList ≠ [] ∧
          query.IsSubmatch entry.rule.matchSet) ∧
      (∀ entry ∈ installed, entry.rule.matchSet = query →
        entry ∈ trie.walk .enclosing query) ∧
      ∀ entry ∈ installed, ∃ slot position, trie.locate? entry = some (slot, position) ∧
        (trie.kept slot)[position]? = some entry := by
  obtain ⟨chain, formed, same⟩ := reached.formed
  have met (entry : EntryRef) : entry ∈ trie.walk .enclosing query ↔
      entry ∈ installed ∧ query.IsSubmatch entry.rule.matchSet ∧
        (query.toList = [] ↔ entry.rule.matchSet.toList = []) := by
    rw [formed.mem_walk_enclosing_iff, same.mem_iff]
  refine ⟨fun steps enough => ?_, formed.nodup_walk .enclosing query, fun bare entry => ?_,
    fun proper entry => ?_, fun entry member equal => ?_, fun entry member => ?_⟩
  · rw [formed.coherent.walkSteps_start .enclosing query enough]
    exact ⟨rfl, rfl⟩
  · rw [met, iff_true_left bare]
    exact and_congr_right fun _ => and_iff_right_of_imp fun free => MatchSet.forall_of_bare free
  · rw [met, iff_false_left proper]
    exact and_congr_right fun _ => and_comm
  · exact (met entry).mpr ⟨member, equal ▸ .refl _, by rw [equal]⟩
  · exact formed.kept_of_locate? (same.mem_iff.mpr member)

/-- What encloses the host is the host and its network; the host does not enclose the latter. -/
theorem sample_walk_enclosing :
    sample.Reaches [host, subnet] ∧
      (sample.walkSteps .enclosing host.rule.matchSet 7 .start).2 = .ended ∧
      (sample.walk .enclosing host.rule.matchSet).Perm [host, subnet] ∧
      host ∉ sample.walk .enclosing subnet.rule.matchSet ∧
      ∃ slot position, sample.locate? host = some (slot, position) ∧
        (sample.kept slot)[position]? = some host := by
  obtain ⟨ends, distinct, -, met, -, found⟩ :=
    reaches_sample.walk_enclosing host.rule.matchSet
  obtain ⟨-, -, -, metSubnet, -, -⟩ := reaches_sample.walk_enclosing subnet.rule.matchSet
  have both : ∀ entry ∈ [host, subnet], entry.rule.matchSet.toList ≠ [] ∧
      host.rule.matchSet.IsSubmatch entry.rule.matchSet := by decide
  refine ⟨reaches_sample, (ends 7 (by decide)).2,
    (List.perm_ext_iff_of_nodup distinct (by decide)).mpr ?_, ?_,
    found host List.mem_cons_self⟩
  · exact fun entry => (met (by decide) entry).trans (and_iff_left_of_imp (both entry))
  · rw [metSubnet (by decide)]
    exact fun enclosed => absurd enclosed.2.2 (by decide)

end Trie

end PacketClassifier
