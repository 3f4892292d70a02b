import PacketClassifier.Proofs.MatchBits
import PacketClassifier.Trie.Consistency
import PacketClassifier.Trie.Walk

/-!
# What a conjunction implies

A conjunction implies a match if its own match on that field is at least as narrow.
An entry belongs under a path of stems if its conjunction implies all of them and
has no match that is not among them.  So the path stands for the conjunction: the
same packets satisfy both, and both are visited by the same walks.
-/

namespace PacketClassifier

namespace MatchSet

theorem mem_of_get? {set : MatchSet} {field : Field} {m : Match}
    (found : set.get? field = some m) : m ∈ set.toList ∧ m.field = field := by
  unfold get? at found
  exact ⟨List.mem_of_find?_eq_some found, by simpa using List.find?_some found⟩

/-- A conjunction has no second match on a field. -/
theorem eq_of_field_eq {set : MatchSet} {left right : Match}
    (leftMember : left ∈ set.toList) (rightMember : right ∈ set.toList)
    (same : left.field = right.field) : left = right := by
  have apart : ∀ {i j : Nat} (iBelow : i < set.toList.length)
      (jBelow : j < set.toList.length), i < j →
        set.toList[i].field ≠ set.toList[j].field := by
    intro i j iBelow jBelow before fields
    have ordered := List.pairwise_iff_getElem.mp set.ordered i j iBelow jBelow
      before
    rw [fields] at ordered
    exact Nat.lt_irrefl _ ordered
  obtain ⟨i, iBelow, rfl⟩ := List.getElem_of_mem leftMember
  obtain ⟨j, jBelow, rfl⟩ := List.getElem_of_mem rightMember
  rcases Nat.lt_trichotomy i j with before | rfl | after
  · exact absurd same (apart iBelow jBelow before)
  · rfl
  · exact absurd same.symm (apart jBelow iBelow after)

theorem get?_of_mem {set : MatchSet} {m : Match} (member : m ∈ set.toList) :
    set.get? m.field = some m := by
  cases found : set.get? m.field with
  | none => exact absurd rfl (get?_eq_none_iff.mp found m member)
  | some other =>
      have parts := mem_of_get? found
      rw [eq_of_field_eq parts.1 member parts.2]

/-- Nothing is asked of the matches of a conjunction that has none. -/
theorem forall_of_bare {set : MatchSet} (bare : set.toList = []) {holds : Match → Prop} :
    ∀ m ∈ set.toList, holds m := by
  intro m member
  rw [bare] at member
  exact absurd member List.not_mem_nil

/-- Some match of the set is at least as narrow as the stem. -/
def Implies (set : MatchSet) (stem : Match) : Prop :=
  ∃ m ∈ set.toList, m.IsSubmatch stem

theorem implies_iff_get? {set : MatchSet} {stem : Match} :
    set.Implies stem ↔ ∃ m ∈ set.get? stem.field, m.IsSubmatch stem := by
  constructor
  · rintro ⟨m, member, narrower⟩
    exact ⟨m, narrower.1 ▸ get?_of_mem member, narrower⟩
  · rintro ⟨m, found, narrower⟩
    exact ⟨m, (mem_of_get? found).1, narrower⟩

theorem Implies.of_mem {set : MatchSet} {m : Match} (member : m ∈ set.toList) :
    set.Implies m :=
  ⟨m, member, .refl m⟩

theorem IsSubmatch.refl (set : MatchSet) : set.IsSubmatch set :=
  fun _ member => implies_iff_get?.mp (.of_mem member)

theorem Implies.widen {set : MatchSet} {narrow wide : Match}
    (implied : set.Implies narrow) (wider : narrow.IsSubmatch wide) :
    set.Implies wide := by
  rcases implied with ⟨m, member, narrower⟩
  exact ⟨m, member, narrower.trans wider⟩

/-- A packet that satisfies a conjunction satisfies what the conjunction implies. -/
theorem Implies.admits {set : MatchSet} {stem : Match} {packet : Packet}
    (implied : set.Implies stem) (satisfied : set.Admits packet) :
    stem.Admits packet := by
  rcases implied with ⟨m, member, narrower⟩
  exact narrower.admits (satisfied m member)

end MatchSet

namespace Trie

variable {entry : EntryRef} {path : List Match}

theorem belongsUnder_iff :
    BelongsUnder entry path ↔
      (∀ m ∈ entry.rule.matchSet.toList, m ∈ path) ∧
        ∀ stem ∈ path, entry.rule.matchSet.Implies stem := by
  simp only [BelongsUnder, MatchSet.implies_iff_get?]

/-- The packets that satisfy an entry are those that satisfy the path to it. -/
theorem BelongsUnder.admits_iff (belongs : BelongsUnder entry path)
    (packet : Packet) :
    entry.rule.matchSet.Admits packet ↔ ∀ stem ∈ path, stem.Admits packet := by
  rw [belongsUnder_iff] at belongs
  constructor
  · intro satisfied stem member
    exact (belongs.2 stem member).admits satisfied
  · intro satisfied m member
    exact satisfied m (belongs.1 m member)

/-- What the conjunction of an entry has to be to the query for a walk to get there. -/
def Relates (mode : WalkMode) (query : MatchSet) (entry : EntryRef) : Prop :=
  match mode with
  | .overlapping => entry.rule.matchSet.Intersects query
  | .enclosing => query.IsSubmatch entry.rule.matchSet

instance (mode : WalkMode) (query : MatchSet) (entry : EntryRef) :
    Decidable (Relates mode query entry) :=
  match mode with
  | .overlapping =>
      inferInstanceAs (Decidable (entry.rule.matchSet.Intersects query))
  | .enclosing =>
      inferInstanceAs (Decidable (query.IsSubmatch entry.rule.matchSet))

/-- A walk that visits every stem of the path to an entry is one that relates to it. -/
theorem BelongsUnder.visits_iff (belongs : BelongsUnder entry path)
    (mode : WalkMode) (query : MatchSet) :
    (∀ stem ∈ path, mode.Visits query stem) ↔ Relates mode query entry := by
  rw [belongsUnder_iff] at belongs
  cases mode with
  | overlapping =>
      constructor
      · intro visited m member other found
        exact (visited m (belongs.1 m member) other found).symm
      · intro common stem member other found
        rcases belongs.2 stem member with ⟨m, own, narrower⟩
        rw [← narrower.1] at found
        exact ((common m own other found).widen narrower).symm
  | enclosing =>
      constructor
      · intro visited m member
        exact visited m (belongs.1 m member)
      · intro tighter stem member
        rcases belongs.2 stem member with ⟨m, own, narrower⟩
        exact MatchSet.implies_iff_get?.mp
          ((MatchSet.implies_iff_get?.mpr (tighter m own)).widen narrower)

end Trie

end PacketClassifier
