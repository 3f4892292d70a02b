import PacketClassifier.Proofs.Implication
import PacketClassifier.Proofs.Trie.Insertion

/-!
# Where entries are placed

In a well placed tree every entry belongs under the stems on the way to its node.
An insertion keeps a tree well placed: the stems that it puts on the way to older
entries are wider than a stem that was there, and the new entry comes to lie where
its matches are used up.  It adds the new entry and moves none from the tree.
-/

namespace PacketClassifier

open Trie

namespace Chain

/-- Every entry belongs under the path to the chain and the stems down to its node. -/
def WellPlaced (path : List Match) : Chain → Prop
  | empty => True
  | node _ stem own inner next =>
      (∀ entry ∈ own, BelongsUnder entry (path ++ [stem])) ∧
        inner.WellPlaced (path ++ [stem]) ∧ next.WellPlaced path

end Chain

/-! ## Wider stems on the way -/

/-- A path has the stems of another one, and besides only wider ones. -/
structure Widens (path longer : List Match) : Prop where
  kept : ∀ stem ∈ path, stem ∈ longer
  wider : ∀ stem ∈ longer, ∃ narrow ∈ path, narrow.IsSubmatch stem

namespace Widens

variable {path longer : List Match}

theorem append (widens : Widens path longer) (stem : Match) :
    Widens (path ++ [stem]) (longer ++ [stem]) where
  kept other member := by
    rcases List.mem_append.mp member with old | last
    · exact List.mem_append_left _ (widens.kept other old)
    · exact List.mem_append_right _ last
  wider other member := by
    rcases List.mem_append.mp member with old | last
    · rcases widens.wider other old with ⟨narrow, listed, narrower⟩
      exact ⟨narrow, List.mem_append_left _ listed, narrower⟩
    · exact ⟨other, List.mem_append_right _ last, .refl other⟩

/-- A wider stem in front of the last one. -/
theorem interpose (path : List Match) {narrow wide : Match}
    (wider : narrow.IsSubmatch wide) :
    Widens (path ++ [narrow]) (path ++ [wide] ++ [narrow]) where
  kept other member := by
    rcases List.mem_append.mp member with old | last
    · exact List.mem_append_left _ (List.mem_append_left _ old)
    · exact List.mem_append_right _ last
  wider other member := by
    rcases List.mem_append.mp member with front | last
    · rcases List.mem_append.mp front with old | middle
      · exact ⟨other, List.mem_append_left _ old, .refl other⟩
      · rw [List.mem_singleton.mp middle]
        exact ⟨narrow, List.mem_append_right _ List.mem_cons_self, wider⟩
    · exact ⟨other, List.mem_append_right _ last, .refl other⟩

theorem belongsUnder (widens : Widens path longer) {entry : EntryRef}
    (belongs : BelongsUnder entry path) : BelongsUnder entry longer := by
  rw [belongsUnder_iff] at *
  refine ⟨fun m member => widens.kept m (belongs.1 m member), ?_⟩
  intro stem member
  rcases widens.wider stem member with ⟨narrow, listed, narrower⟩
  exact (belongs.2 narrow listed).widen narrower

theorem wellPlaced (widens : Widens path longer) {chain : Chain}
    (placed : chain.WellPlaced path) : chain.WellPlaced longer := by
  induction chain generalizing path longer with
  | empty => trivial
  | node id stem own inner next innerIH nextIH =>
      rcases placed with ⟨ownPlaced, innerPlaced, nextPlaced⟩
      exact ⟨fun entry member =>
          (widens.append stem).belongsUnder (ownPlaced entry member),
        innerIH (widens.append stem) innerPlaced, nextIH widens nextPlaced⟩

end Widens

/-! ## The way of a new entry -/

/--
A descent has come along `path` with `stems` left: the entry implies the path, and
its matches are those left and those that are stems of the path.
-/
structure Descends (entry : EntryRef) (path stems : List Match) : Prop where
  implied : ∀ stem ∈ path, entry.rule.matchSet.Implies stem
  used : ∀ m ∈ entry.rule.matchSet.toList, m ∈ path ∨ m ∈ stems
  left : ∀ m ∈ stems, m ∈ entry.rule.matchSet.toList

namespace Descends

variable {entry : EntryRef} {path rest : List Match} {candidate stem : Match}

theorem start (entry : EntryRef) :
    Descends entry [] entry.rule.matchSet.toList where
  implied := by simp
  used _ member := Or.inr member
  left _ member := member

/-- The descent passes a stem that is wider than the next match. -/
theorem pass (descends : Descends entry path (candidate :: rest))
    (narrower : candidate.IsSubmatch stem) :
    Descends entry (path ++ [stem]) (candidate :: rest) where
  implied other member := by
    rcases List.mem_append.mp member with old | last
    · exact descends.implied other old
    · rw [List.mem_singleton.mp last]
      exact ⟨candidate, descends.left candidate List.mem_cons_self, narrower⟩
  used m member := by
    rcases descends.used m member with old | listed
    · exact Or.inl (List.mem_append_left _ old)
    · exact Or.inr listed
  left := descends.left

theorem use (descends : Descends entry path (candidate :: rest)) :
    Descends entry (path ++ [candidate]) rest where
  implied := (descends.pass (.refl candidate)).implied
  used m member := by
    rcases descends.used m member with old | listed
    · exact Or.inl (List.mem_append_left _ old)
    · rcases List.mem_cons.mp listed with rfl | later
      · exact Or.inl (List.mem_append_right _ List.mem_cons_self)
      · exact Or.inr later
  left m member := descends.left m (List.mem_cons_of_mem _ member)

/-- When no match is left, the entry belongs where the descent has come. -/
theorem belongsUnder (descends : Descends entry path []) :
    BelongsUnder entry path := by
  rw [belongsUnder_iff]
  refine ⟨fun m member => ?_, descends.implied⟩
  rcases descends.used m member with listed | none
  · exact listed
  · exact absurd none List.not_mem_nil

end Descends

/-! ## Where an entry joins others -/

/-- The list `after` is the list `before` with the entry put in somewhere. -/
def Joins (entry : EntryRef) (before after : List EntryRef) : Prop :=
  ∃ ahead behind, before = ahead ++ behind ∧ after = ahead ++ entry :: behind

namespace Joins

variable {entry : EntryRef} {before after : List EntryRef}

theorem front (entry : EntryRef) (entries : List EntryRef) :
    Joins entry entries (entry :: entries) :=
  ⟨[], entries, rfl, rfl⟩

theorem prepend (joins : Joins entry before after) (others : List EntryRef) :
    Joins entry (others ++ before) (others ++ after) := by
  rcases joins with ⟨ahead, rest, rfl, rfl⟩
  exact ⟨others ++ ahead, rest, (List.append_assoc ..).symm,
    (List.append_assoc ..).symm⟩

theorem append (joins : Joins entry before after) (others : List EntryRef) :
    Joins entry (before ++ others) (after ++ others) := by
  rcases joins with ⟨ahead, rest, rfl, rfl⟩
  exact ⟨ahead, rest ++ others, List.append_assoc .., List.append_assoc ..⟩

theorem filter (joins : Joins entry before after)
    (keep : EntryRef → Bool) :
    after.filter keep = before.filter keep ∨
      Joins entry (before.filter keep) (after.filter keep) := by
  rcases joins with ⟨ahead, behind, rfl, rfl⟩
  rw [List.filter_append, List.filter_append, List.filter_cons]
  split
  · exact Or.inr ⟨_, _, rfl, rfl⟩
  · exact Or.inl rfl

theorem perm (joins : Joins entry before after) :
    after.Perm (entry :: before) := by
  rcases joins with ⟨ahead, rest, rfl, rfl⟩
  exact List.perm_middle

end Joins

theorem joins_insertByPriority (entry : EntryRef) (entries : List EntryRef) :
    Joins entry entries (insertByPriority entries entry) :=
  ⟨_, _, (List.take_append_drop _ entries).symm, rfl⟩

namespace Chain

variable {entry : EntryRef} {fresh : Nat} {path stems : List Match}
  {chain : Chain}

theorem wellPlaced_branch (descends : Descends entry path stems)
    (position : Nat) : (branch entry position stems).WellPlaced path := by
  induction stems generalizing position path with
  | nil => trivial
  | cons stem rest ih =>
      cases rest with
      | nil =>
          refine ⟨fun other member => ?_, trivial, trivial⟩
          rw [List.mem_singleton.mp member]
          exact descends.use.belongsUnder
      | cons second rest =>
          exact ⟨by simp, ih descends.use (position + 1), trivial⟩

/-- A wider stem may take the place of a node with the node below it. -/
theorem WellPlaced.adopt {id adopter : NodeId} {stem wide : Match}
    {own held : List EntryRef} {inner next beside : Chain}
    (placed : (node id stem own inner next).WellPlaced path)
    (wider : stem.IsSubmatch wide)
    (heldPlaced : ∀ entry ∈ held, BelongsUnder entry (path ++ [wide]))
    (besidePlaced : beside.WellPlaced (path ++ [wide])) :
    (node adopter wide held (node id stem own inner beside) next).WellPlaced
      path := by
  rcases placed with ⟨ownPlaced, innerPlaced, nextPlaced⟩
  have widens := Widens.interpose path wider
  refine ⟨heldPlaced, ⟨fun entry member => ?_, ?_, besidePlaced⟩, nextPlaced⟩
  · exact widens.belongsUnder (ownPlaced entry member)
  · exact widens.wellPlaced innerPlaced

/-- An insertion keeps every entry where it belongs. -/
theorem WellPlaced.place (placed : chain.WellPlaced path)
    (descends : Descends entry path stems) :
    (chain.place entry fresh stems).WellPlaced path := by
  induction chain generalizing path stems with
  | empty =>
      cases stems with
      | nil => exact placed
      | cons candidate rest => exact wellPlaced_branch descends fresh
  | node id stem own inner next innerIH nextIH =>
      cases stems with
      | nil => exact placed
      | cons candidate rest =>
          have parts := placed
          rcases parts with ⟨ownPlaced, innerPlaced, nextPlaced⟩
          cases fits : stem.fit candidate with
          | apart =>
              simp only [Chain.place, fits]
              exact ⟨ownPlaced, innerPlaced, nextIH nextPlaced descends⟩
          | inside =>
              simp only [Chain.place, fits]
              have passed := descends.pass (Match.fit_inside fits)
              exact ⟨ownPlaced, innerIH innerPlaced passed, nextPlaced⟩
          | equal =>
              obtain rfl := Match.fit_equal fits
              simp only [Chain.place, fits]
              split
              · rename_i usedUp
                subst usedUp
                refine ⟨fun other member => ?_, innerPlaced, nextPlaced⟩
                rcases List.mem_cons.mp
                    ((insertByPriority_perm own entry).mem_iff.mp member) with
                  rfl | old
                · exact descends.use.belongsUnder
                · exact ownPlaced other old
              · exact ⟨ownPlaced, innerIH innerPlaced descends.use, nextPlaced⟩
          | around =>
              simp only [Chain.place, fits]
              refine placed.adopt (Match.fit_around fits) ?_
                (wellPlaced_branch descends.use (fresh + 1))
              split
              · rename_i usedUp
                subst usedUp
                intro other member
                rw [List.mem_singleton.mp member]
                exact descends.use.belongsUnder
              · simp
          | fork shared =>
              simp only [Chain.place, fits]
              have narrower := Match.fit_fork fits
              exact placed.adopt narrower.1 (by simp)
                (wellPlaced_branch (descends.pass narrower.2) (fresh + 1))

/-- An insertion puts the new entry somewhere among the entries, depth first. -/
theorem joins_place (entry : EntryRef) (fresh : Nat) (chain : Chain)
    (nonempty : stems ≠ []) :
    Joins entry chain.entries (chain.place entry fresh stems).entries := by
  induction chain generalizing stems with
  | empty =>
      obtain ⟨candidate, rest, rfl⟩ := List.exists_cons_of_ne_nil nonempty
      rw [Chain.place, entries_branch entry fresh nonempty]
      · exact .front entry []
      · exact nonempty
  | node id stem own inner next innerIH nextIH =>
      obtain ⟨candidate, rest, rfl⟩ := List.exists_cons_of_ne_nil nonempty
      cases fits : stem.fit candidate with
      | apart =>
          simp only [Chain.place, fits]
          exact (nextIH nonempty).prepend (own ++ inner.entries)
      | inside =>
          simp only [Chain.place, fits]
          exact ((innerIH nonempty).prepend own).append next.entries
      | equal =>
          simp only [Chain.place, fits]
          by_cases usedUp : rest = []
          · rw [if_pos usedUp]
            exact ((joins_insertByPriority entry own).append
              inner.entries).append next.entries
          · rw [if_neg usedUp]
            exact ((innerIH usedUp).prepend own).append next.entries
      | around =>
          simp only [Chain.place, fits]
          by_cases usedUp : rest = []
          · simpa [usedUp, branch, entries] using
              Joins.front entry (own ++ inner.entries ++ next.entries)
          · -- the branch hangs behind the node that is adopted
            simpa [usedUp, entries] using
              ((Joins.front entry []).prepend
                (own ++ inner.entries)).append next.entries
      | fork shared =>
          simp only [Chain.place, fits]
          simpa [entries] using
            ((Joins.front entry []).prepend
              (own ++ inner.entries)).append next.entries

/-- An insertion adds the new entry and moves none out of the tree. -/
theorem entries_place (entry : EntryRef) (fresh : Nat) (chain : Chain)
    (nonempty : stems ≠ []) :
    (chain.place entry fresh stems).entries.Perm (entry :: chain.entries) :=
  (joins_place entry fresh chain nonempty).perm

theorem sorted_branch (entry : EntryRef) (position : Nat) (stems : List Match) :
    (branch entry position stems).Sorted := by
  induction stems generalizing position with
  | nil => trivial
  | cons stem rest ih =>
      cases rest with
      | nil => exact ⟨rfl, trivial, trivial⟩
      | cons second rest => exact ⟨rfl, ih (position + 1), trivial⟩

theorem Sorted.place (sorted : chain.Sorted) :
    (chain.place entry fresh stems).Sorted := by
  induction chain generalizing stems with
  | empty =>
      cases stems with
      | nil => exact sorted
      | cons candidate rest => exact sorted_branch entry fresh _
  | node id stem own inner next innerIH nextIH =>
      cases stems with
      | nil => exact sorted
      | cons candidate rest =>
          have parts := sorted
          rcases parts with ⟨ownSorted, innerSorted, nextSorted⟩
          have beside : ∀ stems, (node id stem own inner
              (branch entry (fresh + 1) stems)).Sorted := fun stems =>
            ⟨ownSorted, innerSorted, sorted_branch entry (fresh + 1) stems⟩
          cases fits : stem.fit candidate with
          | apart =>
              simp only [Chain.place, fits]
              exact ⟨ownSorted, innerSorted, nextIH nextSorted⟩
          | inside =>
              simp only [Chain.place, fits]
              exact ⟨ownSorted, innerIH innerSorted, nextSorted⟩
          | equal =>
              simp only [Chain.place, fits]
              split
              · exact ⟨sortedByPriority_insert ownSorted entry, innerSorted,
                  nextSorted⟩
              · exact ⟨ownSorted, innerIH innerSorted, nextSorted⟩
          | around =>
              simp only [Chain.place, fits]
              refine ⟨?_, beside rest, nextSorted⟩
              split
              · rfl
              · rfl
          | fork shared =>
              simp only [Chain.place, fits]
              exact ⟨rfl, beside (candidate :: rest), nextSorted⟩

end Chain

end PacketClassifier
