import PacketClassifier.Matcher
import PacketClassifier.Proofs.PacketSpace

/-!
# Comparisons of entries

The three relations that compare an entry with a template form a chain: an entry that equals
the template is contained in it, and an entry that is contained in the template overlaps it.
So a strict request designates some of the entries that a non-strict one with the same template
does.  The relations meet where an entry is added with a check of overlaps: an installed entry
that would give way to it overlaps it as well, unless their cookies tell them apart.
-/

namespace PacketClassifier

theorem MatchSet.IsSubmatch.intersects {narrow wide : MatchSet}
    (tighter : narrow.IsSubmatch wide) : narrow.Intersects wide :=
  intersects_of_admits (narrow.admits_filled 0) (tighter.admits (narrow.admits_filled 0))

/-! ## The chain of relations -/

namespace Rule

variable {rule template : Rule} {checkPriority checkCookie : Bool}

theorem SameAs.containedIn (same : rule.SameAs template checkCookie) (checkPriority : Bool) :
    rule.ContainedIn template checkPriority checkCookie := by
  obtain ⟨priority, matches', cookie⟩ := same
  exact ⟨fun _ => priority, cookie, matches' ▸ MatchSet.IsSubmatch.refl _⟩

theorem ContainedIn.overlaps (contained : rule.ContainedIn template checkPriority checkCookie) :
    rule.Overlaps template checkPriority checkCookie :=
  ⟨contained.1, contained.2.1, contained.2.2.intersects⟩

/-- Rules alike that do not overlap have cookies that tell them apart. -/
theorem SameAs.not_cookieMatches (same : rule.SameAs template false)
    (apart : ¬ rule.Overlaps template true true) :
    ¬ rule.CookieMatches template.cookie template.cookieMask := by
  intro agree
  have equal : rule.SameAs template true := ⟨same.1, same.2.1, fun _ => agree⟩
  exact apart (equal.containedIn true).overlaps

end Rule

namespace Entry

variable {entry template : Entry} {checkPriority checkCookie : Bool} {filter : OutputFilter}

theorem SameAs.containedIn (same : entry.SameAs template checkCookie filter)
    (checkPriority : Bool) : entry.ContainedIn template checkPriority checkCookie filter :=
  ⟨Rule.SameAs.containedIn same.1 checkPriority, same.2⟩

/-- What a filter lets pass for the entry itself, it lets pass for one of the two. -/
theorem ContainedIn.overlaps
    (contained : entry.ContainedIn template checkPriority checkCookie filter) :
    entry.Overlaps template checkPriority checkCookie filter :=
  ⟨Rule.ContainedIn.overlaps contained.1, Or.inl contained.2.1, Or.inl contained.2.2⟩

/-- What a strict request designates, a non-strict one with the same template does. -/
theorem nonStrict_selects_of_strict (selected : Strictness.strict.Selects entry template filter) :
    Strictness.nonStrict.Selects entry template filter :=
  SameAs.containedIn selected false

end Entry

/-! ## Plans that look for overlaps -/

/-- A stem that all packets of a conjunction satisfy is one that some packet satisfies. -/
theorem WalkMode.visits_overlapping {query : MatchSet} {stem : Match}
    (visited : WalkMode.enclosing.Visits query stem) :
    WalkMode.overlapping.Visits query stem := by
  obtain ⟨own, found, tighter⟩ := visited
  intro other foundOther
  obtain rfl := Option.mem_unique found foundOther
  exact Match.IsSubmatch.intersects tighter

namespace Trie

variable (trie : Trie) (query : MatchSet)

theorem walkFrom_enclosing_sublist (fuel : Nat) (cursor : Option NodeId) :
    (trie.walkFrom .enclosing query fuel cursor).Sublist
      (trie.walkFrom .overlapping query fuel cursor) := by
  induction fuel generalizing cursor with
  | zero => exact List.Sublist.refl []
  | succ fuel ih =>
      cases cursor with
      | none => exact List.Sublist.refl []
      | some id =>
          simp only [walkFrom]
          cases trie.node? id with
          | none => exact List.Sublist.refl []
          | some node =>
              refine List.Sublist.append ?_ (ih node.next)
              by_cases visited : WalkMode.enclosing.Visits query node.stem
              · rw [if_pos visited, if_pos (WalkMode.visits_overlapping visited)]
                exact (List.Sublist.refl _).append (ih node.inner)
              · rw [if_neg visited]
                exact List.nil_sublist _

/-- A walk over what encloses a conjunction comes across a part of what overlaps it. -/
theorem walk_enclosing_sublist :
    (trie.walk .enclosing query).Sublist (trie.walk .overlapping query) := by
  refine List.Sublist.map _ (List.Sublist.append ?_ (trie.walkFrom_enclosing_sublist query _ _))
  have root : WalkMode.overlapping.VisitsRoot query := Or.inl rfl
  rw [if_pos root]
  split
  · exact List.Sublist.refl _
  · exact List.nil_sublist _

end Trie

variable {candidate old new : EntryRef}

/--
An entry that gives way to a candidate is found among those that were looked through for
overlaps, so it has another cookie.
-/
theorem Rule.not_cookieMatches_of_find? {searched overlapping : List EntryRef}
    (among : searched ⊆ overlapping)
    (apart : ¬ ∃ other ∈ overlapping, other.rule.Overlaps candidate.rule true true)
    (found : searched.find? (fun other => other.rule.SameAs candidate.rule false) = some old) :
    old.rule.SameAs candidate.rule false ∧
      ¬ old.rule.CookieMatches candidate.rule.cookie candidate.rule.cookieMask := by
  have selected := List.find?_some found
  have same : old.rule.SameAs candidate.rule false := of_decide_eq_true selected
  have member := among (List.mem_of_find?_eq_some found)
  exact ⟨same, same.not_cookieMatches fun overlaps => apart ⟨old, member, overlaps⟩⟩

theorem PriorityList.not_cookieMatches_of_planAdd {list : PriorityList}
    (planned : list.planAdd candidate true = .ok (.replace old new)) :
    new = candidate ∧ old.rule.SameAs candidate.rule false ∧
      ¬ old.rule.CookieMatches candidate.rule.cookie candidate.rule.cookieMask := by
  unfold planAdd at planned
  split at planned
  · cases planned
  · rename_i apart
    split at planned
    · rename_i found
      cases planned
      exact ⟨rfl, Rule.not_cookieMatches_of_find? (List.Subset.refl _)
        (fun overlaps => apart ⟨rfl, overlaps⟩) found⟩
    · cases planned

theorem Trie.not_cookieMatches_of_planAdd {trie : Trie}
    (planned : trie.planAdd candidate true = .ok (.replace old new)) :
    new = candidate ∧ old.rule.SameAs candidate.rule false ∧
      ¬ old.rule.CookieMatches candidate.rule.cookie candidate.rule.cookieMask := by
  unfold planAdd at planned
  split at planned
  · cases planned
  · rename_i apart
    split at planned
    · rename_i found
      cases planned
      exact ⟨rfl, Rule.not_cookieMatches_of_find? (trie.walk_enclosing_sublist _).subset
        (fun overlaps => apart ⟨rfl, overlaps⟩) found⟩
    · split at planned
      · cases planned
      · cases planned

/-- A plan with a check of overlaps has only an entry with another cookie give way. -/
theorem Matcher.not_cookieMatches_of_planAdd {matcher : Matcher}
    (planned : matcher.planAdd candidate true = .ok (.replace old new)) :
    new = candidate ∧ old.rule.SameAs candidate.rule false ∧
      ¬ old.rule.CookieMatches candidate.rule.cookie candidate.rule.cookieMask := by
  cases matcher with
  | trie tree => exact Trie.not_cookieMatches_of_planAdd planned
  | list sequence => exact PriorityList.not_cookieMatches_of_planAdd planned

/--
An entry that equals a template is contained in it, whether priorities are compared or not, and
one that is contained overlaps it; strict requests select no more than non-strict ones.  Where
an entry is added with a check of overlaps, an installed one gives way only if it has the same
priority and conjunction, and a cookie that differs under the mask of the added one.
-/
theorem Entry.comparisons_chain :
    (∀ (entry template : Entry) (checkCookie : Bool) (filter : OutputFilter),
      (entry.SameAs template checkCookie filter →
        ∀ checkPriority, entry.ContainedIn template checkPriority checkCookie filter) ∧
      (∀ checkPriority, entry.ContainedIn template checkPriority checkCookie filter →
        entry.Overlaps template checkPriority checkCookie filter) ∧
      (Strictness.strict.Selects entry template filter →
        Strictness.nonStrict.Selects entry template filter)) ∧
    ∀ (matcher : Matcher) (candidate old new : EntryRef),
      matcher.planAdd candidate true = .ok (.replace old new) →
        new = candidate ∧ old.rule.SameAs candidate.rule false ∧
          ¬ old.rule.CookieMatches candidate.rule.cookie candidate.rule.cookieMask := by
  refine ⟨fun entry template checkCookie filter => ⟨?_, ?_, ?_⟩, ?_⟩
  · exact SameAs.containedIn
  · exact fun checkPriority => ContainedIn.overlaps
  · exact nonStrict_selects_of_strict
  · exact fun matcher candidate old new => Matcher.not_cookieMatches_of_planAdd

/-- A rule for the packets to a port. -/
def portRule : EntryRef where
  id := 0
  rule := {
    priority := 1
    cookie := 5
    matchSet := ⟨[⟨.udpDst, 53, 0xFFFF, by decide, by decide⟩], by simp [InFieldOrder],
      by decide⟩ }

/-- The same rule again, with a cookie of which the last two bits count. -/
def portRuleAgain : EntryRef where
  id := 1
  rule := { portRule.rule with cookie := 2, cookieMask := 3 }

/-- The rule gives way to the one that comes again: the last two bits of the cookies differ. -/
theorem portRule_comparisons :
    Strictness.strict.Selects ⟨portRule.rule, {}⟩ ⟨portRule.rule, {}⟩ {} ∧
      Strictness.nonStrict.Selects ⟨portRule.rule, {}⟩ ⟨portRule.rule, {}⟩ {} ∧
      Entry.Overlaps ⟨portRule.rule, {}⟩ ⟨portRule.rule, {}⟩ true true {} ∧
      (Matcher.list ⟨[portRule]⟩).planAdd portRuleAgain true =
        .ok (.replace portRule portRuleAgain) ∧
      ¬ portRule.rule.CookieMatches portRuleAgain.rule.cookie portRuleAgain.rule.cookieMask := by
  have selected : Strictness.strict.Selects ⟨portRule.rule, {}⟩ ⟨portRule.rule, {}⟩ {} := by
    decide
  have planned : (Matcher.list ⟨[portRule]⟩).planAdd portRuleAgain true =
      .ok (.replace portRule portRuleAgain) := by decide
  obtain ⟨chain, replaced⟩ := Entry.comparisons_chain
  obtain ⟨contained, overlaps, nonStrict⟩ := chain ⟨portRule.rule, {}⟩ ⟨portRule.rule, {}⟩ true {}
  exact ⟨selected, nonStrict selected, overlaps true (contained selected true), planned,
    (replaced _ _ _ _ planned).2.2⟩

end PacketClassifier
