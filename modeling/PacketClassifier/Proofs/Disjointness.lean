import PacketClassifier.Proofs.MatcherRuns
import PacketClassifier.Proofs.PacketSpace
import PacketClassifier.Proofs.SideBySide
import PacketClassifier.Proofs.TableSteps

/-!
# Runs without ambiguity

An entry that asks for a check of overlaps, and does not have cookies tell entries apart, is
refused if some packet may match it and an installed entry of its priority.  Where every
entry is installed like that, no two entries of one priority have a packet in common.  Then
a search has a single right answer, which any matcher of the same entries finds.
-/

namespace PacketClassifier

/-! ## Entries apart from each other -/

variable {entries others : List EntryRef} {entry : EntryRef}

/-- Different entries of a priority have conjunctions that do not intersect. -/
def Unambiguous (entries : List EntryRef) : Prop :=
  ∀ one ∈ entries, ∀ other ∈ entries, one.rule.priority = other.rule.priority →
    one.rule.matchSet.Intersects other.rule.matchSet → one = other

namespace Unambiguous

theorem mono (unambiguous : Unambiguous entries) (fewer : others ⊆ entries) :
    Unambiguous others :=
  fun one member other otherMember =>
    unambiguous one (fewer member) other (fewer otherMember)

theorem cons (unambiguous : Unambiguous entries)
    (fresh : ∀ other ∈ entries, other.rule.priority = entry.rule.priority →
      ¬ other.rule.matchSet.Intersects entry.rule.matchSet) :
    Unambiguous (entry :: entries) := by
  intro one member other otherMember same common
  rcases List.mem_cons.mp member with rfl | listed
  · rcases List.mem_cons.mp otherMember with rfl | otherListed
    · rfl
    · exact absurd common.symm (fresh other otherListed same.symm)
  · rcases List.mem_cons.mp otherMember with rfl | otherListed
    · exact absurd common (fresh one listed same)
    · exact unambiguous one listed other otherListed same common

/-- No packet satisfies two entries of a priority. -/
theorem pairwise (unambiguous : Unambiguous entries) (distinct : entries.Nodup)
    (packet : Packet) :
    entries.Pairwise fun one other => one.rule.priority = other.rule.priority →
      ¬ (one.rule.matchSet.Admits packet ∧ other.rule.matchSet.Admits packet) := by
  apply distinct.pairwise_of_forall_ne
  rintro one member other otherMember different same ⟨first, second⟩
  exact different (unambiguous one member other otherMember same
    (MatchSet.intersects_of_admits first second))

/-- A search has a single right answer. -/
theorem answer_unique (unambiguous : Unambiguous entries) {packet : Packet}
    {left right : Option EntryRef} (first : Answers entries packet left)
    (second : Answers entries packet right) : left = right := by
  have same := first.priority_eq second
  cases left with
  | none => exact (second.eq_none_iff.mpr first).symm
  | some best =>
      cases right with
      | none => exact absurd same (by simp)
      | some other =>
          have common := MatchSet.intersects_of_admits first.2.1 second.2.1
          exact congrArg some (unambiguous best first.1 other second.1
            (Option.some.inj same) common)

end Unambiguous

/-! ## Guarded requests -/

/-- Whatever the cookies, rules of a priority overlap if their conjunctions intersect. -/
theorem Rule.overlaps_iff_of_unmasked {rule candidate : Rule}
    (unmasked : candidate.cookieMask = 0) :
    rule.Overlaps candidate true true ↔
      rule.priority = candidate.priority ∧ rule.matchSet.Intersects candidate.matchSet := by
  simp [Rule.Overlaps, Rule.CookieMatches, unmasked]

theorem PriorityList.not_overlaps_of_planAdd {list : PriorityList} {change : Change}
    (planned : list.planAdd entry true = .ok change) :
    ∀ other ∈ list.entries, ¬ other.rule.Overlaps entry.rule true true := by
  intro other member overlaps
  have refused : list.planAdd entry true = .error .overlap :=
    if_pos ⟨rfl, other, member, overlaps⟩
  exact absurd (refused.symm.trans planned) (by simp)

namespace Matcher

variable {matcher : Matcher} {change : Change} {request : Request}
  {requests : List Request}

/-- An entry that is added asks for a check of overlaps, whatever the cookies. -/
def Request.Guarded : Request → Prop
  | .add entry checkOverlap => checkOverlap = true ∧ entry.rule.cookieMask = 0
  | .remove .. | .clear => True

/-- An entry that is checked is apart from those of its priority, and none gives way to it. -/
theorem WellFormed.planAdd_checked (formed : matcher.WellFormed)
    (unmasked : entry.rule.cookieMask = 0)
    (planned : matcher.planAdd entry true = .ok change) :
    change = .insert entry ∧
      ∀ other ∈ matcher.entries, other.rule.priority = entry.rule.priority →
        ¬ other.rule.matchSet.Intersects entry.rule.matchSet := by
  have listed := formed.planAdd_list planned
  have apart : ∀ other ∈ matcher.entries, other.rule.priority = entry.rule.priority →
      ¬ other.rule.matchSet.Intersects entry.rule.matchSet :=
    fun other member same common => PriorityList.not_overlaps_of_planAdd listed other member
      ((Rule.overlaps_iff_of_unmasked unmasked).mpr ⟨same, common⟩)
  refine ⟨?_, apart⟩
  rcases PriorityList.planAdd_cases listed with ⟨old, member, alike, -⟩ | ⟨-, inserted⟩
  · have sets : entry.rule.matchSet = old.rule.matchSet := congrArg Prod.snd alike
    have common : old.rule.matchSet.Intersects entry.rule.matchSet :=
      sets ▸ MatchSet.Intersects.refl _
    exact absurd common (apart old member (congrArg Prod.fst alike).symm)
  · exact inserted

theorem unambiguous_after (formed : matcher.WellFormed)
    (unambiguous : Unambiguous matcher.entries) (guarded : request.Guarded) :
    Unambiguous (matcher.after request).entries := by
  unfold Matcher.after
  cases planned : matcher.plan request with
  | error cause => exact unambiguous
  | ok change =>
      cases request with
      | add entry checkOverlap =>
          obtain ⟨rfl, unmasked⟩ := guarded
          obtain ⟨rfl, apart⟩ := formed.planAdd_checked unmasked planned
          have carried := (formed.apply_plan planned).2
          exact (unambiguous.cons apart).mono carried.subset
      | remove ledger target =>
          exact unambiguous.mono (formed.apply_planRemove planned).2
      | clear =>
          obtain rfl := Except.ok.inj planned
          exact unambiguous.mono (formed.apply_clear.2 ▸ List.nil_subset _)

theorem unambiguous_run (formed : matcher.WellFormed)
    (unambiguous : Unambiguous matcher.entries)
    (guarded : ∀ request ∈ requests, request.Guarded) :
    Unambiguous (matcher.run requests).entries := by
  induction requests generalizing matcher with
  | nil => exact unambiguous
  | cons first rest ih =>
      obtain ⟨now, later⟩ := List.forall_mem_cons.mp guarded
      exact ih (formed.after first) (unambiguous_after formed unambiguous now) later

/-! ## A trie and a list with the same requests -/

/-- Nothing is to be removed but everything, which any matcher can do. -/
def Request.Plain : Request → Prop
  | .add .. | .clear => True
  | .remove .. => False

/-- Along the run something is refused because no more nodes can be numbered. -/
def RunsOut : Matcher → List Request → Prop
  | _, [] => False
  | matcher, request :: rest =>
      matcher.plan request = .error .arenaFull ∨ (matcher.after request).RunsOut rest

theorem after_add_trie (tree : Trie) (entry : EntryRef) (checkOverlap : Bool) :
    (Matcher.trie tree).after (.add entry checkOverlap) =
      .trie (tree.enact (tree.planAdd entry checkOverlap)) := by
  cases planned : tree.planAdd entry checkOverlap with
  | error cause => simp only [Matcher.after, plan, planAdd, planned, Trie.enact]
  | ok change => simp only [Matcher.after, plan, planAdd, planned, Trie.enact, apply]

theorem after_add_list (list : PriorityList) (entry : EntryRef) (checkOverlap : Bool) :
    (Matcher.list list).after (.add entry checkOverlap) =
      .list (list.enact (list.planAdd entry checkOverlap)) := by
  cases planned : list.planAdd entry checkOverlap with
  | error cause => simp only [Matcher.after, plan, planAdd, planned, PriorityList.enact]
  | ok change => simp only [Matcher.after, plan, planAdd, planned, PriorityList.enact, apply]

/-- Unless the trie runs out of nodes, the same requests keep the two side by side. -/
theorem sideBySide_run {tree : Trie} {list : PriorityList} (together : SideBySide tree list)
    (plain : ∀ request ∈ requests, request.Plain) :
    (Matcher.trie tree).RunsOut requests ∨
      ∃ laterTree laterList, SideBySide laterTree laterList ∧
        (Matcher.trie tree).run requests = .trie laterTree ∧
        (Matcher.list list).run requests = .list laterList := by
  induction requests generalizing tree list with
  | nil => exact Or.inr ⟨tree, list, together, rfl, rfl⟩
  | cons first rest ih =>
      obtain ⟨now, later⟩ := List.forall_mem_cons.mp plain
      cases first with
      | remove ledger target => exact absurd now id
      | clear => exact (ih together.clear later).imp_left Or.inr
      | add entry checkOverlap =>
          by_cases room : tree.planAdd entry checkOverlap = .error .arenaFull
          · exact Or.inl (Or.inl room)
          · rcases ih (together.add entry checkOverlap room) later with full | continued
            · rw [← after_add_trie] at full
              exact Or.inl (Or.inr full)
            · rw [← after_add_trie, ← after_add_list] at continued
              exact Or.inr continued

/-- No entry gives way to a checked one, and entries of a priority share no packet. -/
structure Separate (matcher : Matcher) : Prop where
  inserts : ∀ entry : EntryRef, entry.rule.cookieMask = 0 →
    ∀ old new, matcher.planAdd entry true ≠ .ok (.replace old new)
  disjoint : ∀ packet, matcher.entries.Pairwise fun one other =>
    one.rule.priority = other.rule.priority →
      ¬ (one.rule.matchSet.Admits packet ∧ other.rule.matchSet.Admits packet)

/--
Where every entry is checked and has no cookie mask, no entry ever gives way to another,
and no packet satisfies two of a priority.  A trie and a list that get the same entries
find the same entry for every packet, unless the trie runs out of nodes.
-/
theorem run_separate (guarded : ∀ request ∈ requests, request.Guarded) :
    (∀ kind, ((Matcher.empty kind).run requests).Separate) ∧
      ((∀ request ∈ requests, request.Plain) →
        (Matcher.empty .trie).RunsOut requests ∨
          ∀ packet, ((Matcher.empty .trie).run requests).find? packet =
            ((Matcher.empty .list).run requests).find? packet) := by
  have formed : ∀ kind, ((Matcher.empty kind).run requests).WellFormed :=
    fun kind => (wellFormed_empty kind).run requests
  have unambiguous : ∀ kind, Unambiguous ((Matcher.empty kind).run requests).entries := by
    intro kind
    apply unambiguous_run (wellFormed_empty kind) _ guarded
    cases kind <;> exact fun one member => absurd member List.not_mem_nil
  refine ⟨fun kind => ⟨fun entry unmasked old new planned => ?_, fun packet => ?_⟩,
    fun plain => ?_⟩
  · exact absurd ((formed kind).planAdd_checked unmasked planned).1 (by simp)
  · exact (unambiguous kind).pairwise (formed kind).toldApart.nodup packet
  · rcases sideBySide_run SideBySide.empty plain with
      full | ⟨tree, list, together, trieRun, listRun⟩
    · exact Or.inl full
    · obtain ⟨installed, mirrors⟩ := together.mirrors
      refine Or.inr fun packet => ?_
      have first := (formed .trie).find?_answers packet
      have second := (formed .list).find?_answers packet
      have same : ((Matcher.empty .list).run requests).entries.Perm
          ((Matcher.empty .trie).run requests).entries := by
        rw [show (Matcher.empty .trie).run requests = .trie tree from trieRun,
          show (Matcher.empty .list).run requests = .list list from listRun]
        exact mirrors.same.trans mirrors.reached.entries_perm.symm
      exact (unambiguous .trie).answer_unique first (second.perm same)

/-- A rule for another network than that of `Trie.subnet`, of the same priority. -/
def farSubnet : EntryRef where
  id := 1
  rule := {
    priority := 1
    matchSet := ⟨[⟨.ipv4Dst, 0xAC100000, 0xFFF00000, by decide, by decide⟩],
      List.pairwise_singleton _ _, by decide⟩ }

/-- Two networks of a priority, each added with a check of overlaps. -/
def subnets : List Request :=
  [.add Trie.subnet true, .add farSubnet true]

/-- There is room for both in a trie, which finds what a list finds. -/
theorem subnets_separate :
    (∀ request ∈ subnets, request.Guarded) ∧ (∀ request ∈ subnets, request.Plain) ∧
      ∀ packet, ((Matcher.empty .trie).run subnets).find? packet =
        ((Matcher.empty .list).run subnets).find? packet := by
  have guarded : ∀ request ∈ subnets, request.Guarded :=
    List.forall_mem_cons.mpr ⟨⟨rfl, rfl⟩, List.forall_mem_singleton.mpr ⟨rfl, rfl⟩⟩
  have plain : ∀ request ∈ subnets, request.Plain :=
    List.forall_mem_cons.mpr ⟨trivial, List.forall_mem_singleton.mpr trivial⟩
  refine ⟨guarded, plain, ((run_separate guarded).2 plain).resolve_left ?_⟩
  rintro (full | full | full)
  · exact absurd full (by decide)
  · exact absurd full (by decide)
  · exact full

end Matcher

end PacketClassifier
