import PacketClassifier.Proofs.Trie.Nesting

/-!
# The ways to entries

The matches of an installed entry lead to the node where the entry is: the stems on the
way are wider than the next match, or use it up.  An insertion keeps the ways of older
entries, because a node put in the place of another one is wider, and it leads a way to
the new entry.
-/

namespace PacketClassifier

open Trie

variable {candidate stem wide : Match} {stems : List Match}
  {entry other old new : EntryRef} {target : NodeId}

namespace Chain

variable {chain inner next : Chain} {id : NodeId} {own : List EntryRef}

/-! ## Ways -/

/-- The matches lead down a chain to a node that stores the entry. -/
inductive Route (entry : EntryRef) (target : NodeId) : Chain → List Match → Prop
  | here {stem : Match} {own : List EntryRef} {inner next : Chain}
      (stored : entry ∈ own) : Route entry target (node target stem own inner next) [stem]
  | used {id : NodeId} {stem : Match} {own : List EntryRef} {inner next : Chain}
      {rest : List Match} (below : Route entry target inner rest) :
      Route entry target (node id stem own inner next) (stem :: rest)
  | inside {id : NodeId} {stem candidate : Match} {own : List EntryRef}
      {inner next : Chain} {rest : List Match} (fits : stem.fit candidate = .inside)
      (below : Route entry target inner (candidate :: rest)) :
      Route entry target (node id stem own inner next) (candidate :: rest)
  | behind {id : NodeId} {stem : Match} {own : List EntryRef} {inner next : Chain}
      {stems : List Match} (further : Route entry target next stems) :
      Route entry target (node id stem own inner next) stems

namespace Route

theorem ne_nil (route : Route entry target chain stems) : stems ≠ [] := by
  induction route with
  | here stored => simp
  | used below ih => simp
  | inside fits below ih => simp
  | behind further ih => exact ih

/-- The parts of a node may be exchanged for parts to which the same ways lead. -/
theorem mono {own' : List EntryRef} {inner' next' : Chain}
    (route : Route entry target (node id stem own inner next) stems)
    (stored : ∀ entry ∈ own, entry ∈ own')
    (below : ∀ {stems}, Route entry target inner stems →
      Route entry target inner' stems)
    (further : ∀ {stems}, Route entry target next stems →
      Route entry target next' stems) :
    Route entry target (node id stem own' inner' next') stems := by
  cases route with
  | here found => exact .here (stored entry found)
  | used deeper => exact .used (below deeper)
  | inside fits deeper => exact .inside fits (below deeper)
  | behind rest => exact .behind (further rest)

/-- A node put in the place of another one has the ways that led there lead on. -/
theorem adopt (route : Route entry target (node id stem own inner next) stems)
    (adopts : wide.Adopts stem candidate) (adopter : NodeId) (held : List EntryRef)
    (beside : Chain) :
    Route entry target (node adopter wide held (node id stem own inner beside) next)
      stems := by
  have passes : ∀ {m}, stem.LeadsTo m → wide.fit m = .inside := fun leads =>
    leads.widen adopts.shares.left adopts.shares.leading adopts.proper adopts.different
  cases route with
  | here stored => exact .inside (passes (Or.inl rfl)) (.here stored)
  | used below => exact .inside (passes (Or.inl rfl)) (.used below)
  | inside fits below => exact .inside (passes (Or.inr fits)) (.inside fits below)
  | behind further => exact .behind further

/-- An insertion keeps the ways to older entries. -/
theorem place (route : Route other target chain stems) (entry : EntryRef)
    (fresh : Nat) (inserted : List Match) :
    Route other target (chain.place entry fresh inserted) stems := by
  induction chain generalizing stems inserted with
  | empty => cases route
  | node id stem own inner next innerIH nextIH =>
      cases inserted with
      | nil => exact route
      | cons candidate rest =>
          rcases place_node_cases entry fresh id stem own inner next candidate rest with
            ⟨-, placed⟩ | ⟨-, placed⟩ | ⟨-, placed⟩ |
            ⟨wide, remaining, adoption, placed⟩
          all_goals rw [placed]
          · exact route.mono (fun _ stored => stored) (fun below => below)
              (fun further => nextIH further _)
          · exact route.mono (fun _ stored => stored) (fun below => innerIH below _)
              (fun further => further)
          · refine route.mono (fun older stored => ?_) (fun below => innerIH below _)
              (fun further => further)
            split
            · exact (insertByPriority_perm own entry).mem_iff.mpr
                (List.mem_cons_of_mem _ stored)
            · exact stored
          · exact route.adopt adoption.adopts _ _ _

theorem exchange (route : Route entry target chain stems) (old new : EntryRef) :
    Route (old.exchange new entry) target (chain.exchange old new) stems := by
  induction route with
  | here stored => exact .here (List.mem_map_of_mem stored)
  | used below ih => exact .used ih
  | inside fits below ih => exact .inside fits ih
  | behind further ih => exact .behind ih

end Route

theorem exists_route_branch (entry : EntryRef) (position : Nat)
    (nonempty : stems ≠ []) :
    ∃ target, Route entry target (branch entry position stems) stems := by
  induction stems generalizing position with
  | nil => exact absurd rfl nonempty
  | cons stem rest ih =>
      cases rest with
      | nil => exact ⟨_, .here List.mem_cons_self⟩
      | cons second rest =>
          obtain ⟨target, below⟩ := ih (position + 1) (List.cons_ne_nil second rest)
          exact ⟨target, .used below⟩

/-- An insertion leads a way to the new entry. -/
theorem exists_route_place (entry : EntryRef) (fresh : Nat) (chain : Chain)
    (nonempty : stems ≠ []) :
    ∃ target, Route entry target (chain.place entry fresh stems) stems := by
  induction chain generalizing stems with
  | empty =>
      obtain ⟨candidate, rest, rfl⟩ := List.exists_cons_of_ne_nil nonempty
      exact exists_route_branch entry fresh nonempty
  | node id stem own inner next innerIH nextIH =>
      obtain ⟨candidate, rest, rfl⟩ := List.exists_cons_of_ne_nil nonempty
      rcases place_node_cases entry fresh id stem own inner next candidate rest with
        ⟨-, placed⟩ | ⟨fits, placed⟩ | ⟨rfl, placed⟩ |
        ⟨wide, remaining, adoption, placed⟩
      all_goals rw [placed]
      · obtain ⟨target, further⟩ := nextIH nonempty
        exact ⟨target, .behind further⟩
      · obtain ⟨target, below⟩ := innerIH nonempty
        exact ⟨target, .inside fits below⟩
      · by_cases usedUp : rest = []
        · subst usedUp
          exact ⟨id, .here ((insertByPriority_perm own entry).mem_iff.mpr
            List.mem_cons_self)⟩
        · obtain ⟨target, below⟩ := innerIH usedUp
          exact ⟨target, .used below⟩
      · cases adoption with
        | around fits =>
            by_cases usedUp : rest = []
            · subst usedUp
              exact ⟨_, .here List.mem_cons_self⟩
            · obtain ⟨target, below⟩ :=
                exists_route_branch entry (fresh + 1) usedUp
              exact ⟨target, .used (.behind below)⟩
        | fork fits =>
            obtain ⟨target, below⟩ :=
              exists_route_branch entry (fresh + 1) nonempty
            exact ⟨target, .inside (Match.fit_shared fits) (.behind below)⟩

/-- The matches of every entry lead to it. -/
def Routed (chain : Chain) : Prop :=
  ∀ entry ∈ chain.entries,
    ∃ target, Route entry target chain entry.rule.matchSet.toList

theorem Routed.place (routed : chain.Routed) (entry : EntryRef) (fresh : Nat) :
    (chain.place entry fresh entry.rule.matchSet.toList).Routed := by
  intro stored member
  by_cases bare : entry.rule.matchSet.toList = []
  · rw [bare, Chain.place] at member ⊢
    exact routed stored member
  · rcases List.mem_cons.mp ((entries_place entry fresh chain bare).mem_iff.mp member)
      with rfl | older
    · exact exists_route_place stored fresh chain bare
    · obtain ⟨target, route⟩ := routed stored older
      exact ⟨target, route.place entry fresh _⟩

theorem Routed.exchange (routed : chain.Routed) (same : new.rule.key = old.rule.key) :
    (chain.exchange old new).Routed := by
  intro stored member
  rw [entries_exchange, List.mem_map] at member
  obtain ⟨before, listed, rfl⟩ := member
  obtain ⟨target, route⟩ := routed before listed
  rw [matchSet_exchange same]
  exact ⟨target, route.exchange old new⟩

end Chain

end PacketClassifier
