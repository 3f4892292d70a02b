import PacketClassifier.Proofs.Narrowing
import PacketClassifier.Proofs.Trie.Exchange

/-!
# Nodes below nodes

The stem of a node comes under the stem of its owner.  It may be the same stem: where a
node and a match share no more than what the owner has them share already, an insertion
puts a node between that repeats the stem of the owner.  An insertion adds at most one
such node, and only there.  Inner chains nest no deeper than the bits of all fields, and
the repeating nodes, allow.
-/

namespace PacketClassifier

open Trie

variable {above : Option Match} {candidate stem wide : Match}
  {stems rest remaining : List Match} {entry : EntryRef}

/-! ## Matches that come to a chain -/

/-- The matches may be used for nodes of a chain whose owner has the stem `above`. -/
structure Enters (above : Option Match) (stems : List Match) : Prop where
  ordered : InFieldOrder stems
  proper : ∀ m ∈ stems, ¬ m.IsWildcard
  under : ∀ m ∈ stems, ∀ owner ∈ above, m.Under owner ∧ m ≠ owner

namespace Enters

theorem start (set : MatchSet) : Enters none set.toList where
  ordered := set.ordered
  proper := set.proper
  under _ _ _ none := absurd none (by simp)

/-- The matches come to a chain below a stem that is wider than the first of them. -/
theorem below (enters : Enters above (candidate :: rest)) (leading : wide.IsLeading)
    (narrower : candidate.IsSubmatch wide) (different : candidate ≠ wide) :
    Enters (some wide) (candidate :: rest) where
  ordered := enters.ordered
  proper := enters.proper
  under := by
    rintro m member owner ⟨⟩
    rcases List.mem_cons.mp member with rfl | later
    · exact ⟨Or.inr ⟨leading, narrower⟩, different⟩
    · have order := (List.pairwise_cons.mp enters.ordered).1 m later
      rw [narrower.1] at order
      exact ⟨Or.inl order, fun same => Nat.lt_irrefl _ (same ▸ order)⟩

/-- When the first match is used up, the others come to the chain below it. -/
theorem use (enters : Enters above (candidate :: rest)) :
    Enters (some candidate) rest where
  ordered := (List.pairwise_cons.mp enters.ordered).2
  proper m member := enters.proper m (List.mem_cons_of_mem _ member)
  under := by
    rintro m member owner ⟨⟩
    have order := (List.pairwise_cons.mp enters.ordered).1 m member
    exact ⟨Or.inl order, fun same => Nat.lt_irrefl _ (same ▸ order)⟩

theorem inside (enters : Enters above (candidate :: rest))
    (fits : stem.fit candidate = .inside) : Enters (some stem) (candidate :: rest) := by
  obtain ⟨different, narrower, leading, -⟩ := Match.fit_eq_inside_iff.mp fits
  exact enters.below leading narrower different.symm

theorem first (enters : Enters above (candidate :: rest)) :
    ¬ candidate.IsWildcard ∧
      ∀ owner ∈ above, candidate.Under owner ∧ candidate ≠ owner :=
  ⟨enters.proper candidate List.mem_cons_self,
    enters.under candidate List.mem_cons_self⟩

end Enters

/--
A node for `wide` may be put between a stem and its owner, to hold besides what
`candidate` brings along: `wide` is what the two share, and it is not the stem.
-/
structure Match.Adopts (wide stem candidate : Match) : Prop where
  shares : IsShared stem candidate wide
  proper : ¬ wide.IsWildcard
  different : wide ≠ stem

/-- What an insertion puts at a node that it adopts, and the matches that it has left. -/
inductive Adoption (stem candidate : Match) (rest : List Match) :
    Match → List Match → Prop
  | around (fits : stem.fit candidate = .around) :
      Adoption stem candidate rest candidate rest
  | fork {shared : Match} (fits : stem.fit candidate = .fork shared) :
      Adoption stem candidate rest shared (candidate :: rest)

namespace Adoption

theorem adopts (adoption : Adoption stem candidate rest wide remaining) :
    wide.Adopts stem candidate := by
  cases adoption with
  | around fits =>
      obtain ⟨different, narrower, leading, proper⟩ := Match.fit_eq_around_iff.mp fits
      exact ⟨⟨leading, narrower, .refl candidate, fun _ _ _ inBound => inBound⟩,
        proper, different.symm⟩
  | fork fits =>
      obtain ⟨-, shares, proper, notStem, -⟩ := Match.fit_eq_fork_iff.mp fits
      exact ⟨shares, proper, notStem⟩

theorem enters (adoption : Adoption stem candidate rest wide remaining)
    (enters : Enters above (candidate :: rest)) : Enters (some wide) remaining := by
  cases adoption with
  | around fits => exact enters.use
  | fork fits =>
      obtain ⟨-, shares, -, -, notCandidate⟩ := Match.fit_eq_fork_iff.mp fits
      exact enters.below shares.leading shares.right notCandidate.symm

end Adoption

namespace Match.Adopts

variable {owner : Match}

/-- What comes between two stems under an owner is under the owner itself. -/
theorem under (adopts : wide.Adopts stem candidate) (stemUnder : stem.Under owner)
    (candidateUnder : candidate.Under owner) : wide.Under owner := by
  rcases stemUnder with later | ⟨leading, narrower⟩
  · exact Or.inl (adopts.shares.left.1 ▸ later)
  · have same : candidate.field = owner.field := by
      rw [adopts.shares.right.1, ← adopts.shares.left.1, narrower.1]
    exact Or.inr ⟨leading, adopts.shares.least owner leading narrower
      (candidateUnder.isSubmatch same).2⟩

/-- What is apart from the stem that is adopted is apart from the wider one. -/
theorem fit_apart (adopts : wide.Adopts stem candidate) {later : Match}
    (apart : stem.fit later = .apart) : wide.fit later = .apart :=
  fit_apart_widen apart adopts.shares.left adopts.shares.leading adopts.proper

/-- The stem that is adopted does not repeat its owner's. -/
theorem ne_owner (adopts : wide.Adopts stem candidate)
    (candidateUnder : candidate.Under owner) : owner ≠ stem := by
  rintro rfl
  have same : candidate.field = owner.field := by
    rw [adopts.shares.right.1, ← adopts.shares.left.1]
  obtain ⟨leading, narrower⟩ := candidateUnder.isSubmatch same
  exact adopts.different ((adopts.shares.least owner leading (.refl owner)
    narrower).antisymm adopts.shares.left)

end Match.Adopts

namespace Chain

variable {fresh : Nat} {chain : Chain}

/--
What an insertion makes of a node: it goes on behind the node or below it, or it puts
another node in its place.
-/
theorem place_node_cases (entry : EntryRef) (fresh : Nat) (id : NodeId)
    (stem : Match) (own : List EntryRef) (inner next : Chain) (candidate : Match)
    (rest : List Match) :
    let whole := node id stem own inner next
    let placed := whole.place entry fresh (candidate :: rest)
    (stem.fit candidate = .apart ∧
        placed = node id stem own inner (next.place entry fresh (candidate :: rest))) ∨
      (stem.fit candidate = .inside ∧
        placed = node id stem own (inner.place entry fresh (candidate :: rest)) next) ∨
      (stem = candidate ∧
        placed = node id stem (if rest = [] then insertByPriority own entry else own)
          (inner.place entry fresh rest) next) ∨
      ∃ wide remaining, Adoption stem candidate rest wide remaining ∧
        placed = node (.ofIndex fresh) wide (if remaining = [] then [entry] else [])
          (node id stem own inner (branch entry (fresh + 1) remaining)) next := by
  intro whole placed
  have unfolded : placed = whole.place entry fresh (candidate :: rest) := rfl
  cases fits : stem.fit candidate with
  | apart => exact Or.inl ⟨rfl, by simp only [unfolded, whole, Chain.place, fits]⟩
  | inside =>
      exact Or.inr (Or.inl ⟨rfl, by simp only [unfolded, whole, Chain.place, fits]⟩)
  | equal =>
      refine Or.inr (Or.inr (Or.inl ⟨Match.fit_equal fits, ?_⟩))
      simp only [unfolded, whole, Chain.place, fits]
      split
      · rename_i usedUp
        rw [usedUp, Chain.place]
      · rfl
  | around =>
      refine Or.inr (Or.inr (Or.inr ⟨candidate, rest, .around fits, ?_⟩))
      simp only [unfolded, whole, Chain.place, fits]
  | fork shared =>
      refine Or.inr (Or.inr (Or.inr ⟨shared, candidate :: rest, .fork fits, ?_⟩))
      simp only [unfolded, whole, Chain.place, fits]
      rfl

/-! ## Stems under the stems of owners -/

/-- Every stem is under that of its owner. -/
def Nested (above : Option Match) : Chain → Prop
  | empty => True
  | node _ stem _ inner next =>
      (¬ stem.IsWildcard ∧ ∀ owner ∈ above, stem.Under owner) ∧
        inner.Nested (some stem) ∧ next.Nested above

theorem nested_branch (entry : EntryRef) (position : Nat)
    (enters : Enters above stems) : (branch entry position stems).Nested above := by
  induction stems generalizing above position with
  | nil => trivial
  | cons candidate rest ih =>
      have here : ¬ candidate.IsWildcard ∧ ∀ owner ∈ above, candidate.Under owner :=
        ⟨enters.first.1, fun owner owned => (enters.first.2 owner owned).1⟩
      cases rest with
      | nil => exact ⟨here, trivial, trivial⟩
      | cons second rest => exact ⟨here, ih (position + 1) enters.use, trivial⟩

theorem Nested.adopt {id adopter : NodeId} {own held : List EntryRef}
    {inner next beside : Chain}
    (nested : (node id stem own inner next).Nested above)
    (adopts : wide.Adopts stem candidate)
    (candidateUnder : ∀ owner ∈ above, candidate.Under owner)
    (besideNested : beside.Nested (some wide)) :
    (node adopter wide held (node id stem own inner beside) next).Nested above := by
  rcases nested with ⟨⟨proper, under⟩, innerNested, nextNested⟩
  refine ⟨⟨adopts.proper, fun owner owned =>
    adopts.under (under owner owned) (candidateUnder owner owned)⟩,
    ⟨⟨proper, ?_⟩, innerNested, besideNested⟩, nextNested⟩
  rintro owner ⟨⟩
  exact Or.inr ⟨adopts.shares.leading, adopts.shares.left⟩

/-- An insertion keeps every stem under that of its owner. -/
theorem Nested.place (nested : chain.Nested above) (enters : Enters above stems) :
    (chain.place entry fresh stems).Nested above := by
  induction chain generalizing above stems with
  | empty =>
      cases stems with
      | nil => exact nested
      | cons candidate rest => exact nested_branch entry fresh enters
  | node id stem own inner next innerIH nextIH =>
      cases stems with
      | nil => exact nested
      | cons candidate rest =>
          have parts := nested
          rcases parts with ⟨here, innerNested, nextNested⟩
          rcases place_node_cases entry fresh id stem own inner next candidate rest with
            ⟨-, placed⟩ | ⟨fits, placed⟩ | ⟨rfl, placed⟩ |
            ⟨wide, remaining, adoption, placed⟩
          all_goals rw [placed]
          · exact ⟨here, innerNested, nextIH nextNested enters⟩
          · exact ⟨here, innerIH innerNested (enters.inside fits), nextNested⟩
          · exact ⟨here, innerIH innerNested enters.use, nextNested⟩
          · exact nested.adopt adoption.adopts
              (fun owner owned => (enters.first.2 owner owned).1)
              (nested_branch entry (fresh + 1) (adoption.enters enters))

theorem Nested.exchange (nested : chain.Nested above) (old new : EntryRef) :
    (chain.exchange old new).Nested above := by
  induction chain generalizing above with
  | empty => trivial
  | node id stem own inner next innerIH nextIH =>
      exact ⟨nested.1, innerIH nested.2.1, nextIH nested.2.2⟩

/-! ## Stems that repeat the stems of owners -/

/-- The number of nodes that have the stem of their owner. -/
def repeats (above : Option Match) : Chain → Nat
  | empty => 0
  | node _ stem _ inner next =>
      (if above = some stem then 1 else 0) + inner.repeats (some stem) +
        next.repeats above

/--
The way of the matches comes to fork with a node, and they share the stem of the owner
of that node.
-/
def addsRepeat (above : Option Match) : Chain → List Match → Bool
  | _, [] | empty, _ => false
  | node _ stem _ inner next, candidate :: rest =>
      match stem.fit candidate with
      | .apart => next.addsRepeat above (candidate :: rest)
      | .inside => inner.addsRepeat (some stem) (candidate :: rest)
      | .equal => inner.addsRepeat (some stem) rest
      | .around => false
      | .fork shared => above = some shared

theorem repeats_branch (entry : EntryRef) (position : Nat)
    (enters : Enters above stems) : (branch entry position stems).repeats above = 0 := by
  induction stems generalizing above position with
  | nil => rfl
  | cons candidate rest ih =>
      have notOwner : above ≠ some candidate :=
        fun owned => (enters.first.2 candidate owned).2 rfl
      cases rest with
      | nil => simp [branch, repeats, notOwner]
      | cons second rest =>
          simp [branch, repeats, notOwner, ih (position + 1) enters.use]

/-- A node put between repeats the stem of its owner, or no node does that did not. -/
theorem repeats_adopt {id adopter : NodeId} {own held : List EntryRef}
    {inner next beside : Chain} (adopts : wide.Adopts stem candidate)
    (candidateUnder : ∀ owner ∈ above, candidate.Under owner)
    (none : beside.repeats (some wide) = 0) :
    (node adopter wide held (node id stem own inner beside) next).repeats above =
      (node id stem own inner next).repeats above +
        if above = some wide then 1 else 0 := by
  have notOwner : above ≠ some stem :=
    fun owned => adopts.ne_owner (candidateUnder stem owned) rfl
  have notWide : some wide ≠ some stem := by simpa using adopts.different
  simp only [repeats, none, if_neg notOwner, if_neg notWide]
  omega

/-- An insertion adds a repeating node where it forks at the stem of an owner. -/
theorem repeats_place (chain : Chain) (entry : EntryRef) (fresh : Nat)
    (enters : Enters above stems) :
    (chain.place entry fresh stems).repeats above =
      chain.repeats above + if chain.addsRepeat above stems then 1 else 0 := by
  induction chain generalizing above stems with
  | empty =>
      cases stems with
      | nil => rfl
      | cons candidate rest => exact repeats_branch entry fresh enters
  | node id stem own inner next innerIH nextIH =>
      cases stems with
      | nil => rfl
      | cons candidate rest =>
          rcases place_node_cases entry fresh id stem own inner next candidate rest with
            ⟨fits, placed⟩ | ⟨fits, placed⟩ | ⟨rfl, placed⟩ |
            ⟨wide, remaining, adoption, placed⟩
          all_goals rw [placed]
          · simp only [addsRepeat, fits, repeats, nextIH enters]
            omega
          · simp only [addsRepeat, fits, repeats, innerIH (enters.inside fits)]
            omega
          · simp only [addsRepeat, Match.fit_self, repeats, innerIH enters.use]
            omega
          · rw [repeats_adopt adoption.adopts
              (fun owner owned => (enters.first.2 owner owned).1)
              (repeats_branch entry (fresh + 1) (adoption.enters enters))]
            cases adoption with
            | around fits =>
                have notOwner : above ≠ some candidate :=
                  fun owned => (enters.first.2 candidate owned).2 rfl
                simp [addsRepeat, fits, notOwner]
            | fork fits => simp [addsRepeat, fits]

/-- An insertion that forked at the stem of an owner does so again. -/
theorem addsRepeat_place (chain : Chain) (entry : EntryRef) (fresh : Nat)
    (adds : chain.addsRepeat above stems = true) :
    (chain.place entry fresh stems).addsRepeat above stems = true := by
  induction chain generalizing above stems with
  | empty => cases stems <;> simp [addsRepeat] at adds
  | node id stem own inner next innerIH nextIH =>
      cases stems with
      | nil => simp [addsRepeat] at adds
      | cons candidate rest =>
          rcases place_node_cases entry fresh id stem own inner next candidate rest with
            ⟨fits, placed⟩ | ⟨fits, placed⟩ | ⟨rfl, placed⟩ |
            ⟨wide, remaining, adoption, placed⟩
          all_goals rw [placed]
          · simp only [addsRepeat, fits] at adds ⊢
            exact nextIH adds
          · simp only [addsRepeat, fits] at adds ⊢
            exact innerIH adds
          · simp only [addsRepeat, Match.fit_self] at adds ⊢
            exact innerIH adds
          · cases adoption with
            | around fits => simp [addsRepeat, fits] at adds
            | fork fits => simp [addsRepeat, Match.fit_shared fits, fits]

theorem repeats_exchange (old new : EntryRef) (chain : Chain)
    (above : Option Match) :
    (chain.exchange old new).repeats above = chain.repeats above := by
  induction chain generalizing above with
  | empty => rfl
  | node id stem own inner next innerIH nextIH =>
      simp only [Chain.exchange, repeats, innerIH, nextIH]

/-! ## How deep inner chains nest -/

/-- The number of chains within one another. -/
def height : Chain → Nat
  | empty => 0
  | node _ _ _ inner next => max (inner.height + 1) next.height

/-- Chains nest within the bits of all fields and the stems that are repeated. -/
theorem Nested.height_le (nested : chain.Nested above) :
    above.elim 0 Match.rank + chain.height ≤
      Field.totalBits + chain.repeats above := by
  induction chain generalizing above with
  | empty =>
      cases above with
      | none => simp [height]
      | some owner => simpa [height, repeats] using owner.rank_le
  | node id stem own inner next innerIH nextIH =>
      rcases nested with ⟨⟨proper, under⟩, innerNested, nextNested⟩
      have below := innerIH innerNested
      have behind := nextIH nextNested
      -- a stem that ranks no higher than its owner's is one that repeats it
      have step : above.elim 0 Match.rank + 1 ≤
          stem.rank + if above = some stem then 1 else 0 := by
        cases above with
        | none =>
            have := Match.popCount_mask_pos proper
            simp only [Option.elim_none, Match.rank]
            omega
        | some owner =>
            by_cases same : stem = owner
            · simp [same]
            · have higher := (under owner rfl).rank_lt proper same
              simp only [Option.elim_some]
              omega
      simp only [height, repeats, Option.elim_some] at *
      omega

end Chain

end PacketClassifier
