import PacketClassifier.Proofs.Trie.BestMatch
import PacketClassifier.Proofs.Trie.Survey
import PacketClassifier.Proofs.Trie.Unfolding

/-!
# What a check makes sure of

A check accepts the tries that are coherent with a tree, and no others, whatever their links,
caches and entries are.  So it is enough for everything that is read off a trie: no node is
reached twice or not at all, what is listed is what is stored, and searches have the right
answers.
-/

namespace PacketClassifier

open Trie

/-! ## Visits to all entries -/

theorem nodup_visitsOf (slot : TrieSlot) (entries : List EntryRef) :
    (visitsOf slot entries).Nodup := by
  have numbered : (visitsOf slot entries).map Visit.position =
      List.range entries.length := by
    apply List.ext_getElem
    · simp [visitsOf]
    · simp [visitsOf]
  exact .of_map Visit.position (numbered ▸ List.nodup_range)

namespace Chain

/-- Where no node comes twice, no place is visited twice. -/
theorem nodup_visits {chain : Chain} (distinct : chain.ids.Nodup) : chain.visits.Nodup := by
  rw [← flatMap_visitsOf_cells chain none, List.nodup_flatMap]
  refine ⟨fun cell _ => nodup_visitsOf _ _, ?_⟩
  rw [← map_fst_cells chain none, List.Nodup, List.pairwise_map] at distinct
  refine distinct.imp fun different visit here there => ?_
  have slots := (mem_visitsOf.mp here).1.symm.trans (mem_visitsOf.mp there).1
  exact different (TrieSlot.node.inj slots)

end Chain

namespace Trie

variable {trie : Trie} {chain : Chain}

/-- The entry stored at a position of the list that is kept in a slot. -/
def entryAt? (trie : Trie) : TrieSlot → Nat → Option EntryRef
  | .root, position => trie.rootEntries[position]?
  | .node id, position => trie.node? id >>= fun node => node.entries[position]?

/-- A query without matches overlaps with everything. -/
theorem Coherent.visits_empty (coherent : trie.Coherent chain) :
    trie.visits .overlapping MatchSet.empty =
      visitsOf .root trie.rootEntries ++ chain.visits := by
  have all : ∀ visit ∈ chain.visits,
      decide (Relates .overlapping MatchSet.empty visit.entry) = true := by
    intro visit _
    apply decide_eq_true
    intro m _ other found
    cases found
  have rootToo : WalkMode.overlapping.VisitsRoot MatchSet.empty := Or.inl rfl
  rw [coherent.visits_eq, if_pos rootToo, List.filter_eq_self.mpr all]

theorem Coherent.mem_visits_iff (coherent : trie.Coherent chain) (visit : Visit) :
    visit ∈ trie.visits .overlapping MatchSet.empty ↔
      trie.entryAt? visit.slot visit.position = some visit.entry := by
  rw [coherent.visits_empty, List.mem_append, mem_visitsOf, Chain.mem_visits_iff none]
  obtain ⟨slot, position, entry⟩ := visit
  have holds := coherent.represents.holds
  cases slot with
  | root => simp [entryAt?]
  | node id =>
      simp only [reduceCtorEq, false_and, false_or, TrieSlot.node.injEq, entryAt?]
      constructor
      · rintro ⟨cell, held, rfl, stored⟩
        rw [holds.read cell held]
        exact stored
      · intro stored
        obtain ⟨node, read, stored⟩ := Option.bind_eq_some_iff.mp stored
        exact ⟨(id, node), holds.mem_of_node? read, rfl, stored⟩

theorem Coherent.nodup_visits (coherent : trie.Coherent chain) :
    (trie.visits .overlapping MatchSet.empty).Nodup := by
  have distinct : chain.ids.Nodup := coherent.represents.holds.read.nodup_ids (by simp)
  rw [coherent.visits_empty]
  refine List.nodup_append'.mpr ⟨nodup_visitsOf _ _, Chain.nodup_visits distinct, ?_⟩
  intro visit atRoot inTree
  obtain ⟨cell, -, slot, -⟩ := (Chain.mem_visits_iff none).mp inTree
  cases (mem_visitsOf.mp atRoot).1.symm.trans slot

theorem Coherent.walk_empty (coherent : trie.Coherent chain) :
    trie.walk .overlapping MatchSet.empty = trie.inventory chain := by
  rw [walk, coherent.visits_empty, List.map_append, Chain.map_entry_visitsOf,
    Chain.map_entry_visits, inventory]

/-! ## Conditions that are checked -/

theorem require_bind_eq_ok_iff {α : Type} {condition : Bool} {flaw : TrieFlaw}
    {further : Unit → Except TrieFlaw α} {result : α} :
    (require condition flaw >>= further) = .ok result ↔
      condition = true ∧ further () = .ok result := by
  cases condition with
  | true => simp [require, bind, Except.bind]
  | false => simp [require, bind, Except.bind]

theorem require_eq_ok_iff {condition : Bool} {flaw : TrieFlaw} :
    require condition flaw = .ok () ↔ condition = true := by
  cases condition with
  | true => simp [require]
  | false => simp [require]

theorem require_ne_error {condition : Bool} {flaw other : TrieFlaw} (different : flaw ≠ other) :
    require condition flaw ≠ .error other := by
  cases condition with
  | true => simp [require]
  | false => simpa [require] using different

theorem require_bind_ne_error {α : Type} {condition : Bool} {flaw other : TrieFlaw}
    {further : Unit → Except TrieFlaw α} (different : flaw ≠ other)
    (rest : further () ≠ .error other) :
    (require condition flaw >>= further) ≠ .error other := by
  cases condition with
  | true => simpa [require, bind, Except.bind] using rest
  | false => simpa [require, bind, Except.bind] using different

/-! ## What is accepted -/

/-- A check accepts a trie that is coherent with a tree, and no other. -/
theorem check_eq_ok_iff : trie.check = .ok () ↔ ∃ chain, trie.Coherent chain := by
  constructor
  · intro accepted
    unfold check at accepted
    obtain ⟨rootFormed, accepted⟩ := require_bind_eq_ok_iff.mp accepted
    cases counted : trie.checkFrom (trie.nodes.size + 1) trie.root none []
        trie.rootEntries.length 0 with
    | error flaw =>
        rw [counted] at accepted
        cases accepted
    | ok census =>
        rw [counted] at accepted
        obtain ⟨whole, accounted⟩ := require_bind_eq_ok_iff.mp accepted
        rw [checkFrom_eq_survey (Nat.zero_le _) (by omega)] at counted
        obtain ⟨chain, start, reads, sorted, placed, rfl⟩ := exists_chain_of_survey counted
        obtain ⟨rootSorted, bare⟩ := Bool.and_eq_true_iff.mp rootFormed
        have nodes : chain.size = trie.nodes.size := by simpa using whole
        refine ⟨chain, ⟨start.symm, reads.holds nodes⟩, sorted, placed, rootSorted, ?_, ?_⟩
        · intro entry atRoot
          simpa using List.all_eq_true.mp bare entry atRoot
        · have stored := of_decide_eq_true (require_eq_ok_iff.mp accounted)
          rw [inventory, List.length_append]
          exact stored.symm
  · rintro ⟨chain, coherent⟩
    exact coherent.check_eq_ok

/-- Where links lead to nodes, a check does not come across one that is missing. -/
theorem check_ne_missingNode (inside : trie.LinksInside) (absent : NodeId) :
    trie.check ≠ .error (.missingNode absent) := by
  have found : trie.survey trie.root none [] trie.rootEntries.length 0 ≠
      .error (.missingNode absent) := survey_ne_missingNode inside inside.1 absent
  unfold check
  rw [checkFrom_eq_survey (Nat.zero_le _) (by omega)]
  apply require_bind_ne_error (by simp)
  cases surveyed : trie.survey trie.root none [] trie.rootEntries.length 0 with
  | error flaw =>
      intro same
      obtain rfl := Except.error.inj same
      exact found surveyed
  | ok census => exact require_bind_ne_error (by simp) (require_ne_error (by simp))

/-! ## Faithful tries -/

/--
Everything that is read off the trie is right.  A single way leads from the root to every
node of the arena.  A walk comes across each place where an entry is stored, and once, and the
entries listed are those at these places; one that is stored at two places is listed for both.
Searches have the right answers and come to an end by themselves: more fuel changes nothing.
-/
structure Faithful (trie : Trie) : Prop where
  reached : ∀ index < trie.nodes.size,
    ∃! way, (trie.lead way .root).map NodeId.index = some index
  met : ∀ visit, visit ∈ trie.visits .overlapping MatchSet.empty ↔
    trie.entryAt? visit.slot visit.position = some visit.entry
  once : (trie.visits .overlapping MatchSet.empty).Nodup
  listed : trie.entries.Perm (trie.walk .overlapping MatchSet.empty)
  counted : trie.size = trie.entries.length
  answers : ∀ packet, Answers trie.entries packet (trie.find? packet)
  ended : ∀ packet fuel, trie.nodes.size ≤ fuel →
    trie.searchFrom packet fuel trie.root trie.rootEntries.head? = trie.find? packet

theorem Coherent.faithful (coherent : trie.Coherent chain) : trie.Faithful where
  reached _ inside := coherent.represents.existsUnique_way inside
  met := coherent.mem_visits_iff
  once := coherent.nodup_visits
  listed := coherent.walk_empty ▸ coherent.entries_perm
  counted := coherent.size.trans coherent.entries_perm.length_eq.symm
  answers packet := (coherent.find?_answers packet).perm coherent.entries_perm.symm
  ended packet _ enough :=
    (coherent.searchFrom_eq packet enough).trans (coherent.find?_eq packet).symm

/--
On every trie whatsoever a check comes to an end: with fuel for one node more than there are,
or with more, it does what it does without fuel.  It comes across no missing node unless a
link leads out of the arena.  What it accepts is faithful.
-/
theorem check_sound (trie : Trie) :
    (∀ fuel, trie.nodes.size < fuel →
      trie.checkFrom fuel trie.root none [] trie.rootEntries.length 0 =
        (trie.survey trie.root none [] trie.rootEntries.length 0).map Subtype.val) ∧
      (trie.LinksInside → ∀ absent, trie.check ≠ .error (.missingNode absent)) ∧
      (trie.check = .ok () → trie.Faithful) := by
  refine ⟨fun fuel enough => checkFrom_eq_survey (Nat.zero_le _) enough,
    check_ne_missingNode, fun accepted => ?_⟩
  obtain ⟨chain, coherent⟩ := check_eq_ok_iff.mp accepted
  exact coherent.faithful

/-- The sample, with a link from the host back to its network. -/
def looped : Trie :=
  sample.setLink (.next ⟨1⟩) ⟨0⟩

theorem looped_check_sound :
    (sample.check = .ok () ∧ sample.Faithful) ∧
      (looped.LinksInside ∧ looped.check = .error .cycle ∧
        ∀ absent, looped.check ≠ .error (.missingNode absent)) ∧
      looped.nodes.size < 3 ∧
        (looped.survey looped.root none [] looped.rootEntries.length 0).map Subtype.val =
          .error .cycle := by
  have accepted : sample.check = .ok () := by decide
  have inside : looped.LinksInside := by decide
  have few : looped.nodes.size < 3 := by decide
  obtain ⟨fueled, found, -⟩ := check_sound looped
  refine ⟨⟨accepted, (check_sound sample).2.2 accepted⟩,
    ⟨inside, by decide, found inside⟩, few, ?_⟩
  rw [← fueled 3 few]
  decide

end Trie

end PacketClassifier
