import PacketClassifier.Proofs.Trie.Depth
import PacketClassifier.Proofs.Trie.Parting

/-!
# Entries that share a node

Entries with one conjunction are stored at one node as long as no node repeats the stem
of its owner.  An insertion with a conjunction that is there already adds no node, and
joins an entry with that conjunction, unless it adds a repeating node.
-/

namespace PacketClassifier

variable {trie : Trie} {chain : Chain} {entry other left right old new : EntryRef}
  {installed : List EntryRef} {target : NodeId} {stems : List Match}
  {slot second : TrieSlot}

namespace Chain

/-- What holds of the tree of a trie that comes about. -/
structure Grown (chain : Chain) : Prop where
  nested : chain.Nested none
  parted : chain.Parted none
  routed : chain.Routed

theorem Grown.empty : empty.Grown where
  nested := trivial
  parted := trivial
  routed _ member := absurd member List.not_mem_nil

theorem Grown.place (grown : chain.Grown) (entry : EntryRef) (fresh : Nat) :
    (chain.place entry fresh entry.rule.matchSet.toList).Grown where
  nested := grown.nested.place (.start _)
  parted := grown.parted.place (.start _)
  routed := grown.routed.place entry fresh

theorem Grown.exchange (grown : chain.Grown) (same : new.rule.key = old.rule.key) :
    (chain.exchange old new).Grown where
  nested := grown.nested.exchange old new
  parted := grown.parted.exchange old new
  routed := grown.routed.exchange same

theorem Route.exists_cell (route : Route entry target chain stems)
    (owner : Option NodeId) :
    ∃ cell ∈ chain.cells owner, cell.1 = target ∧ entry ∈ cell.2.entries := by
  induction route generalizing owner with
  | here stored => exact ⟨_, List.mem_cons_self, rfl, stored⟩
  | used below ih =>
      obtain ⟨cell, member, found⟩ := ih _
      exact ⟨cell, List.mem_cons_of_mem _ (List.mem_append_left _ member), found⟩
  | inside fits below ih =>
      obtain ⟨cell, member, found⟩ := ih _
      exact ⟨cell, List.mem_cons_of_mem _ (List.mem_append_left _ member), found⟩
  | behind further ih =>
      obtain ⟨cell, member, found⟩ := ih owner
      exact ⟨cell, List.mem_cons_of_mem _ (List.mem_append_right _ member), found⟩

end Chain

/-- Where entries are distinct, no two cells store one of them. -/
theorem Cell.eq_of_mem_entries {cells : List Cell} {first second : Cell}
    (distinct : (cells.flatMap (fun cell => cell.2.entries)).Nodup)
    (firstMember : first ∈ cells) (secondMember : second ∈ cells)
    (inFirst : entry ∈ first.2.entries) (inSecond : entry ∈ second.2.entries) :
    first = second := by
  apply Decidable.byContradiction
  intro different
  have apart := ((List.perm_cons_erase firstMember).flatMap_right _).nodup_iff.mp
    distinct
  rw [List.flatMap_cons, List.nodup_append] at apart
  have listed : second ∈ cells.erase first :=
    (List.mem_erase_of_ne (Ne.symm different)).mpr secondMember
  exact apart.2.2 entry inFirst entry
    (List.mem_flatMap.mpr ⟨second, listed, inSecond⟩) rfl

namespace Trie

/-- The place is one where the trie stores the entry. -/
def StoredAt (trie : Trie) (entry : EntryRef) : TrieSlot → Prop
  | .root => entry ∈ trie.rootEntries
  | .node id => ∃ node, trie.node? id = some node ∧ entry ∈ node.entries

theorem Reaches.grown (reached : trie.Reaches installed) :
    ∃ chain, trie.WellFormed chain ∧ chain.Grown :=
  reached.exists_chain .empty (fun _ entry fresh grown => grown.place entry fresh)
    (fun _ _ _ same grown => grown.exchange same)

/-! ## Where an entry is stored -/

/-- An entry is stored at one place only. -/
theorem WellFormed.storedAt_unique (formed : trie.WellFormed chain)
    (stored : trie.StoredAt entry slot) (again : trie.StoredAt entry second) :
    slot = second := by
  have parts := formed.apart.nodup
  rw [inventory, List.nodup_append, ← Chain.flatMap_cells chain none] at parts
  obtain ⟨-, distinct, separate⟩ := parts
  have listed : ∀ {id node}, trie.node? id = some node → entry ∈ node.entries →
      (id, node) ∈ chain.cells none ∧
        entry ∈ (chain.cells none).flatMap (fun cell => cell.2.entries) := by
    intro id node read found
    have member := formed.represents.holds.mem_of_node? read
    exact ⟨member, List.mem_flatMap.mpr ⟨_, member, found⟩⟩
  cases slot with
  | root =>
      cases second with
      | root => rfl
      | node id =>
          obtain ⟨node, read, found⟩ := again
          exact absurd rfl (separate entry stored entry (listed read found).2)
  | node id =>
      obtain ⟨node, read, found⟩ := stored
      cases second with
      | root => exact absurd rfl (separate entry again entry (listed read found).2)
      | node other =>
          obtain ⟨node', read', found'⟩ := again
          have same := Cell.eq_of_mem_entries distinct (listed read found).1
            (listed read' found').1 found found'
          rw [(Prod.mk.inj same).1]

/-- A way to an entry ends at the node that stores the entry. -/
theorem Represents.storedAt (represents : trie.Represents chain)
    (route : Chain.Route entry target chain stems) :
    trie.StoredAt entry (.node target) := by
  obtain ⟨cell, member, rfl, stored⟩ := route.exists_cell none
  exact ⟨cell.2, represents.holds.read cell member, stored⟩

/-- Every entry is stored beside the nodes, or its matches lead to it. -/
theorem WellFormed.exists_storedAt (formed : trie.WellFormed chain)
    (routed : chain.Routed) (member : entry ∈ trie.inventory chain) :
    (entry.rule.matchSet.toList = [] ∧ trie.StoredAt entry .root) ∨
      ∃ target, Chain.Route entry target chain entry.rule.matchSet.toList ∧
        trie.StoredAt entry (.node target) := by
  rcases List.mem_append.mp member with atRoot | inTree
  · exact Or.inl ⟨formed.rootPlaced entry atRoot, atRoot⟩
  · obtain ⟨target, route⟩ := routed entry inTree
    exact Or.inr ⟨target, route, formed.represents.storedAt route⟩

/-- Where no node repeats the stem of its owner, one conjunction has one place. -/
theorem WellFormed.storedAt_of_matchSet_eq (formed : trie.WellFormed chain)
    (grown : chain.Grown) (plain : trie.repeats = 0)
    (leftMember : left ∈ trie.inventory chain)
    (rightMember : right ∈ trie.inventory chain)
    (sets : left.rule.matchSet = right.rule.matchSet)
    (stored : trie.StoredAt left slot) : trie.StoredAt right slot := by
  rw [formed.represents.repeats_eq] at plain
  rcases formed.exists_storedAt grown.routed leftMember with
    ⟨bare, atRoot⟩ | ⟨target, route, atNode⟩
  · rw [formed.storedAt_unique stored atRoot]
    rcases formed.exists_storedAt grown.routed rightMember with
      ⟨-, alsoAtRoot⟩ | ⟨other, route, -⟩
    · exact alsoAtRoot
    · exact absurd (sets ▸ bare) route.ne_nil
  · rw [formed.storedAt_unique stored atNode]
    rcases formed.exists_storedAt grown.routed rightMember with
      ⟨bare, -⟩ | ⟨other, otherRoute, alsoAtNode⟩
    · exact absurd (sets ▸ bare) route.ne_nil
    · rw [sets] at route
      rwa [route.target_unique otherRoute grown.parted plain]

/-! ## Insertions of conjunctions that are there -/

/-- An insertion of a conjunction that is there adds nodes only with a repeating one. -/
theorem WellFormed.insert_same (formed : trie.WellFormed chain) (grown : chain.Grown)
    (planned : trie.Plans (.insert entry)) (member : other ∈ trie.inventory chain)
    (sets : other.rule.matchSet = entry.rule.matchSet) :
    ((trie.apply (.insert entry)).nodes.size = trie.nodes.size ↔
        trie.addsRepeat entry = false) ∧
      (trie.addsRepeat entry = false → ∀ slot, trie.StoredAt other slot →
        (trie.apply (.insert entry)).StoredAt entry slot) := by
  obtain ⟨formedAfter, inPlace⟩ := formed.apply planned
  have joins : Joins entry (trie.inventory chain)
      ((trie.apply (.insert entry)).inventory (trie.plant chain entry)) := inPlace
  have sizeAfter : (trie.plant chain entry).size =
      (trie.apply (.insert entry)).nodes.size := formedAfter.represents.size_chain
  rw [← sizeAfter, ← formed.represents.size_chain, formed.represents.addsRepeat_eq]
  rcases formed.exists_storedAt grown.routed member with
    ⟨bare, atRoot⟩ | ⟨target, route, atNode⟩
  · rw [sets] at bare
    refine ⟨by simp [plant, bare, Chain.place, Chain.addsRepeat],
      fun _ slot stored => ?_⟩
    rw [formed.storedAt_unique stored atRoot]
    have installed := joins.perm.mem_iff.mpr List.mem_cons_self
    rcases formedAfter.exists_storedAt
        (grown.routed.place entry trie.nodes.size) installed with
      ⟨-, alsoAtRoot⟩ | ⟨target, route, -⟩
    · exact alsoAtRoot
    · exact absurd bare route.ne_nil
  · rw [sets] at route
    cases adds : chain.addsRepeat none entry.rule.matchSet.toList with
    | true =>
        have grew := Chain.size_lt_size_place chain entry trie.nodes.size adds
        refine ⟨iff_of_false (Nat.ne_of_gt grew) (by simp), fun plain => ?_⟩
        exact absurd plain (by simp)
    | false =>
        obtain ⟨size, joined⟩ :=
          route.place_same grown.parted adds entry trie.nodes.size
        refine ⟨iff_of_true size rfl, fun _ slot stored => ?_⟩
        rw [formed.storedAt_unique stored atNode]
        exact formedAfter.represents.storedAt joined

/--
Along every run each installed entry is stored at one place, and entries with one
conjunction are stored at one place as long as no node repeats the stem of its owner.
An insertion of a conjunction that is there stores the entry where that is, and adds no
node, exactly if it adds no node of that kind.
-/
theorem Reaches.sharing (reached : trie.Reaches installed) :
    (∀ entry ∈ installed, ∃! slot, trie.StoredAt entry slot) ∧
    (trie.repeats = 0 → ∀ left ∈ installed, ∀ right ∈ installed,
      left.rule.matchSet = right.rule.matchSet →
        ∀ slot, trie.StoredAt left slot → trie.StoredAt right slot) ∧
    ∀ entry, trie.Plans (.insert entry) → ∀ other ∈ installed,
      other.rule.matchSet = entry.rule.matchSet →
        ((trie.apply (.insert entry)).nodes.size = trie.nodes.size ↔
          trie.addsRepeat entry = false) ∧
        (trie.addsRepeat entry = false → ∀ slot, trie.StoredAt other slot →
          (trie.apply (.insert entry)).StoredAt entry slot) := by
  obtain ⟨chain, formed, grown⟩ := reached.grown
  have listed : ∀ {entry : EntryRef}, entry ∈ installed →
      entry ∈ trie.inventory chain := by
    intro entry member
    rw [← formed.entries_perm.mem_iff, reached.entries_perm.mem_iff]
    exact member
  refine ⟨fun entry member => ?_, fun plain left leftMember right rightMember sets slot =>
    formed.storedAt_of_matchSet_eq grown plain (listed leftMember)
      (listed rightMember) sets, fun entry planned other member sets =>
    formed.insert_same grown planned (listed member) sets⟩
  rcases formed.exists_storedAt grown.routed (listed member) with
    ⟨-, stored⟩ | ⟨target, -, stored⟩
  · exact ⟨_, stored, fun slot again => formed.storedAt_unique again stored⟩
  · exact ⟨_, stored, fun slot again => formed.storedAt_unique again stored⟩

/-- A rule with the conjunction of `campus`, at another priority. -/
def campusBackup : EntryRef where
  id := 4
  rule := { campus.rule with priority := 4 }

/-- A rule with the conjunction of `office`, at another priority. -/
def officeBackup : EntryRef where
  id := 5
  rule := { office.rule with priority := 4 }

/-- The trie with two parts of a network. -/
def forked : Trie :=
  (Trie.empty.apply (.insert campus)).apply (.insert office)

theorem reaches_forked : forked.Reaches [office, campus] := by
  have first : Trie.empty.Plans (.insert campus) :=
    .add (show Trie.empty.planAdd campus true = .ok (.insert campus) by decide)
  have second : (Trie.empty.apply (.insert campus)).Plans (.insert office) :=
    .add (show (Trie.empty.apply (.insert campus)).planAdd office true =
      .ok (.insert office) by decide)
  exact (Reaches.empty.step first).step second

theorem plans_backups :
    forked.Plans (.insert campusBackup) ∧ forked.Plans (.insert officeBackup) :=
  ⟨.add (show forked.planAdd campusBackup true = .ok (.insert campusBackup) by decide),
    .add (show forked.planAdd officeBackup true = .ok (.insert officeBackup) by decide)⟩

theorem forked_sharing :
    forked.Reaches [office, campus] ∧
      (forked.apply (.insert campusBackup)).nodes.size = forked.nodes.size ∧
      (forked.apply (.insert officeBackup)).nodes.size ≠ forked.nodes.size := by
  have insertions := reaches_forked.sharing.2.2
  have first := insertions campusBackup plans_backups.1 campus (by simp) rfl
  have second := insertions officeBackup plans_backups.2 office (by simp) rfl
  have joins : forked.addsRepeat campusBackup = false := by decide
  have adds : forked.addsRepeat officeBackup = true := by decide
  refine ⟨reaches_forked, first.1.mpr joins, fun same => ?_⟩
  rw [second.1, adds] at same
  exact absurd same (by decide)

/-- The part that is added last is added again, for its backup. -/
theorem forked_backup_apart :
    (forked.apply (.insert officeBackup)).Reaches [officeBackup, office, campus] ∧
      office.rule.matchSet = officeBackup.rule.matchSet ∧
      (forked.apply (.insert officeBackup)).StoredAt office (.node ⟨2⟩) ∧
      (forked.apply (.insert officeBackup)).StoredAt officeBackup (.node ⟨4⟩) ∧
      ¬ (forked.apply (.insert officeBackup)).StoredAt officeBackup (.node ⟨2⟩) ∧
      forked.nodes.size = 3 ∧
      (forked.apply (.insert officeBackup)).nodes.size = 5 := by
  have reached := reaches_forked.step plans_backups.2
  have stored : (forked.apply (.insert officeBackup)).StoredAt office (.node ⟨2⟩) :=
    ⟨_, rfl, by decide⟩
  have apart : (forked.apply (.insert officeBackup)).StoredAt officeBackup (.node ⟨4⟩) :=
    ⟨_, rfl, by decide⟩
  refine ⟨reached, rfl, stored, apart, fun joined => ?_, rfl, rfl⟩
  obtain ⟨chain, formed, -⟩ := reached.formed
  exact absurd (formed.storedAt_unique apart joined) (by decide)

end Trie

end PacketClassifier
