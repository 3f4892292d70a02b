import PacketClassifier.Proofs.Trie.Routes

/-!
# Parted chains

A node is apart from those behind it in the chain, or it leads on to a fork with them at
the stem of their owner.  So an insertion with matches that lead to a node comes to that
node, unless it adds a node that repeats the stem of an owner; and where no node does
that, the matches lead to one node only.
-/

namespace PacketClassifier

open Trie

variable {above : Option Match} {owner later candidate stem wide : Match}
  {stems rest remaining : List Match} {entry other : EntryRef}
  {target left right : NodeId} {fresh : Nat}

namespace Chain

variable {chain inner next : Chain} {id : NodeId} {own : List EntryRef}

/-! ## Forks at the stem of an owner -/

/-- The stems of the nodes of a chain, without those below. -/
def row : Chain → List Match
  | empty => []
  | node _ stem _ _ next => stem :: next.row

/-- The way of a match down a chain ends in a fork at the stem `owner`. -/
inductive ForksAt (owner later : Match) : Chain → Prop
  | here {id : NodeId} {stem : Match} {own : List EntryRef} {inner next : Chain}
      (forks : stem.fit later = .fork owner) :
      ForksAt owner later (node id stem own inner next)
  | inside {id : NodeId} {own : List EntryRef} {inner next : Chain}
      (fits : owner.fit later = .inside) (deeper : ForksAt owner later inner) :
      ForksAt owner later (node id owner own inner next)
  | behind {id : NodeId} {stem : Match} {own : List EntryRef} {inner next : Chain}
      (apart : stem.fit later = .apart) (further : ForksAt owner later next) :
      ForksAt owner later (node id stem own inner next)

namespace ForksAt

theorem adopt (forks : ForksAt owner later (node id stem own inner next))
    (adopts : wide.Adopts stem candidate) (candidateUnder : candidate.Under owner)
    (adopter : NodeId) (held : List EntryRef) (beside : Chain) :
    ForksAt owner later
      (node adopter wide held (node id stem own inner beside) next) := by
  cases forks with
  | here forks =>
      by_cases repeated : wide = owner
      -- the adopter is the fork itself: the way goes on below it, to the node it adopts
      · subst repeated
        exact .inside (Match.fit_shared forks) (.here forks)
      · have shares := (Match.fit_eq_fork_iff.mp forks).2.1
        have stemUnder : stem.Under owner := Or.inr ⟨shares.leading, shares.left⟩
        have fields : wide.field = owner.field := by
          rw [← adopts.shares.left.1, shares.left.1]
        have within := (adopts.under stemUnder candidateUnder).isSubmatch fields
        exact .here (Match.fit_fork_widen forks adopts.shares.left
          adopts.shares.leading within.2 repeated)
  | inside fits deeper => exact absurd rfl (adopts.ne_owner candidateUnder)
  | behind apart further => exact .behind (adopts.fit_apart apart) further

/-- An insertion below an owner keeps the forks at the stem of the owner. -/
theorem place (forks : ForksAt owner later chain) (entry : EntryRef) (fresh : Nat)
    (rest : List Match) (candidateUnder : candidate.Under owner)
    (different : candidate ≠ owner) :
    ForksAt owner later (chain.place entry fresh (candidate :: rest)) := by
  induction chain with
  | empty => cases forks
  | node id stem own inner next innerIH nextIH =>
      rcases place_node_cases entry fresh id stem own inner next candidate rest with
        ⟨-, placed⟩ | ⟨-, placed⟩ | ⟨rfl, placed⟩ |
        ⟨wide, remaining, adoption, placed⟩
      all_goals rw [placed]
      · cases forks with
        | here forks => exact .here forks
        | inside fits deeper => exact .inside fits deeper
        | behind apart further => exact .behind apart (nextIH further)
      · cases forks with
        | here forks => exact .here forks
        | inside fits deeper => exact .inside fits (innerIH deeper)
        | behind apart further => exact .behind apart further
      · cases forks with
        | here forks => exact .here forks
        | inside fits deeper => exact absurd rfl different
        | behind apart further => exact .behind apart further
      · exact forks.adopt adoption.adopts candidateUnder _ _ _

theorem exchange (forks : ForksAt owner later chain) (old new : EntryRef) :
    ForksAt owner later (chain.exchange old new) := by
  induction forks with
  | here forks => exact .here forks
  | inside fits deeper ih => exact .inside fits ih
  | behind apart further ih => exact .behind apart ih

/-- A match whose way goes by such a match comes to the same fork. -/
theorem addsRepeat (forks : ForksAt owner later chain)
    (leads : later.LeadsTo candidate) (rest : List Match) :
    chain.addsRepeat (some owner) (candidate :: rest) = true := by
  induction forks with
  | here forks => simp [Chain.addsRepeat, leads.fit_fork forks]
  | inside fits deeper ih =>
      obtain ⟨different, narrower, leading, proper⟩ := Match.fit_eq_inside_iff.mp fits
      simp [Chain.addsRepeat, leads.widen narrower leading proper different, ih]
  | behind apart further ih => simp [Chain.addsRepeat, leads.fit_apart apart, ih]

end ForksAt

/-! ## Parted chains -/

/-- Every node is apart from those behind it or leads to a fork at the owner's stem. -/
def Parted (above : Option Match) : Chain → Prop
  | empty => True
  | node id stem own inner next =>
      (∀ later ∈ next.row, stem.fit later = .apart ∨
        ∃ owner ∈ above, ForksAt owner later (node id stem own inner next)) ∧
      inner.Parted (some stem) ∧ next.Parted above

theorem row_branch (entry : EntryRef) (position : Nat) (candidate : Match)
    (rest : List Match) :
    (branch entry position (candidate :: rest)).row = [candidate] := by
  cases rest with
  | nil => rfl
  | cons second rest => rfl

theorem parted_branch (entry : EntryRef) (position : Nat) (stems : List Match)
    (above : Option Match) : (branch entry position stems).Parted above := by
  induction stems generalizing above position with
  | nil => trivial
  | cons candidate rest ih =>
      cases rest with
      | nil => exact ⟨by simp [Chain.row], trivial, trivial⟩
      | cons second rest => exact ⟨by simp [Chain.row], ih _ _, trivial⟩

/-- An insertion adds the match to the stems of a chain, or a stem wider than it. -/
theorem mem_row_place (member :
    later ∈ (chain.place entry fresh (candidate :: rest)).row) :
    later ∈ chain.row ∨ later = candidate ∨ ∃ stem, later.Adopts stem candidate := by
  induction chain with
  | empty =>
      have added : later ∈ (branch entry fresh (candidate :: rest)).row := member
      rw [row_branch, List.mem_singleton] at added
      exact Or.inr (Or.inl added)
  | node id stem own inner next innerIH nextIH =>
      rcases place_node_cases entry fresh id stem own inner next candidate rest with
        ⟨-, placed⟩ | ⟨-, placed⟩ | ⟨-, placed⟩ |
        ⟨wide, remaining, adoption, placed⟩
      all_goals rw [placed] at member
      · rcases List.mem_cons.mp member with rfl | further
        · exact Or.inl List.mem_cons_self
        · rcases nextIH further with older | added
          · exact Or.inl (List.mem_cons_of_mem _ older)
          · exact Or.inr added
      · exact Or.inl member
      · exact Or.inl member
      · rcases List.mem_cons.mp member with rfl | further
        · exact Or.inr (Or.inr ⟨stem, adoption.adopts⟩)
        · exact Or.inl (List.mem_cons_of_mem _ further)

/-- What is apart from a match is apart from the stems that an insertion adds. -/
theorem fit_apart_of_mem_place (apart : stem.fit candidate = .apart)
    (member : later ∈ (chain.place entry fresh (candidate :: rest)).row) :
    later ∈ chain.row ∨ stem.fit later = .apart := by
  rcases mem_row_place member with older | rfl | ⟨narrow, adopts⟩
  · exact Or.inl older
  · exact Or.inr apart
  · exact Or.inr (Match.fit_apart_symm (Match.fit_apart_widen
      (Match.fit_apart_symm apart) adopts.shares.right adopts.shares.leading
      adopts.proper))

/-- A node that is adopted and what is left of the new matches are parted. -/
theorem parted_adopted (adoption : Adoption stem candidate rest wide remaining)
    (ordered : InFieldOrder (candidate :: rest)) (entry : EntryRef) (position : Nat)
    (innerParted : inner.Parted (some stem)) :
    (node id stem own inner (branch entry position remaining)).Parted (some wide) := by
  refine ⟨fun later member => ?_, innerParted, parted_branch _ _ _ _⟩
  cases adoption with
  | around fits =>
      cases rest with
      | nil => exact absurd member List.not_mem_nil
      | cons second rest =>
          rw [row_branch, List.mem_singleton] at member
          have fields := field_ne_of_ordered ordered
          rw [← (Match.fit_around fits).1, ← member] at fields
          exact Or.inl (Match.fit_of_field_ne fields)
  | fork fits =>
      rw [row_branch, List.mem_singleton] at member
      exact Or.inr ⟨_, rfl, .here (member ▸ fits)⟩

/-- An insertion keeps chains parted. -/
theorem Parted.place (parted : chain.Parted above) (enters : Enters above stems) :
    (chain.place entry fresh stems).Parted above := by
  induction chain generalizing above stems with
  | empty =>
      cases stems with
      | nil => exact parted
      | cons candidate rest => exact parted_branch _ _ _ _
  | node id stem own inner next innerIH nextIH =>
      cases stems with
      | nil => exact parted
      | cons candidate rest =>
          rcases parted with ⟨here, innerParted, nextParted⟩
          have kept : ∀ later,
              (∃ owner ∈ above, ForksAt owner later (node id stem own inner next)) →
                ∃ owner ∈ above, ForksAt owner later
                  ((node id stem own inner next).place entry fresh
                    (candidate :: rest)) := by
            rintro later ⟨owner, owned, forks⟩
            obtain ⟨under, different⟩ := enters.first.2 owner owned
            exact ⟨owner, owned, forks.place entry fresh rest under different⟩
          rcases place_node_cases entry fresh id stem own inner next candidate rest with
            ⟨fits, placed⟩ | ⟨fits, placed⟩ | ⟨rfl, placed⟩ |
            ⟨wide, remaining, adoption, placed⟩
          all_goals rw [placed] at kept ⊢
          -- the row behind grows only by what shares nothing with the node in front
          · refine ⟨fun later member => ?_, innerParted, nextIH nextParted enters⟩
            rcases fit_apart_of_mem_place fits member with older | apart
            · exact (here later older).imp_right (kept later)
            · exact Or.inl apart
          · refine ⟨fun later member => ?_, innerIH innerParted (enters.inside fits),
              nextParted⟩
            exact (here later member).imp_right (kept later)
          · refine ⟨fun later member => ?_, innerIH innerParted enters.use, nextParted⟩
            exact (here later member).imp_right (kept later)
          · refine ⟨fun later member => ?_,
              parted_adopted adoption enters.ordered entry _ innerParted, nextParted⟩
            exact (here later member).imp adoption.adopts.fit_apart (kept later)

theorem row_exchange (old new : EntryRef) (chain : Chain) :
    (chain.exchange old new).row = chain.row := by
  induction chain with
  | empty => rfl
  | node id stem own inner next innerIH nextIH =>
      simp only [Chain.exchange, Chain.row, nextIH]

theorem Parted.exchange (parted : chain.Parted above) (old new : EntryRef) :
    (chain.exchange old new).Parted above := by
  induction chain generalizing above with
  | empty => trivial
  | node id stem own inner next innerIH nextIH =>
      rcases parted with ⟨here, innerParted, nextParted⟩
      refine ⟨fun later member => ?_, innerIH innerParted, nextIH nextParted⟩
      rw [row_exchange] at member
      exact (here later member).imp_right
        (fun ⟨owner, owned, forks⟩ => ⟨owner, owned, forks.exchange old new⟩)

/-! ## Ways in parted chains -/

/-- A way down a chain goes by a node of it. -/
theorem Route.exists_leadsTo (route : Route entry target chain (candidate :: rest)) :
    ∃ stem ∈ chain.row, stem.LeadsTo candidate := by
  induction chain with
  | empty => cases route
  | node id stem own inner next innerIH nextIH =>
      cases route with
      | here stored => exact ⟨_, List.mem_cons_self, Or.inl rfl⟩
      | used below => exact ⟨_, List.mem_cons_self, Or.inl rfl⟩
      | inside fits below => exact ⟨_, List.mem_cons_self, Or.inr fits⟩
      | behind further =>
          obtain ⟨stem, member, leads⟩ := nextIH further
          exact ⟨stem, List.mem_cons_of_mem _ member, leads⟩

/-- A node in front of a way is apart from it, or an insertion forks there. -/
theorem Parted.fit_apart (parted : (node id stem own inner next).Parted above)
    (further : Route entry target next (candidate :: rest))
    (plain : (node id stem own inner next).addsRepeat above (candidate :: rest) = false) :
    stem.fit candidate = .apart := by
  obtain ⟨later, member, leads⟩ := further.exists_leadsTo
  rcases parted.1 later member with apart | ⟨owner, owned, forks⟩
  · exact leads.fit_apart apart
  · rw [show above = some owner from owned, forks.addsRepeat leads rest] at plain
    exact absurd plain (by simp)

/-- Where no repeating node is added, matches that lead to a node lead an insertion there. -/
theorem Route.place_same (route : Route other target chain stems)
    (parted : chain.Parted above) (plain : chain.addsRepeat above stems = false)
    (entry : EntryRef) (fresh : Nat) :
    (chain.place entry fresh stems).size = chain.size ∧
      Route entry target (chain.place entry fresh stems) stems := by
  induction chain generalizing above stems with
  | empty => cases route
  | node id stem own inner next innerIH nextIH =>
      have parts := parted
      rcases parts with ⟨-, innerParted, nextParted⟩
      cases route with
      | here stored =>
          simp only [Chain.place, Match.fit_self, if_true, Chain.size, true_and]
          exact .here ((insertByPriority_perm own entry).mem_iff.mpr List.mem_cons_self)
      | used below =>
          simp only [Chain.addsRepeat, Match.fit_self] at plain
          obtain ⟨size, route⟩ := innerIH below innerParted plain
          simp only [Chain.place, Match.fit_self, if_neg below.ne_nil, Chain.size, size,
            true_and]
          exact .used route
      | inside fits below =>
          simp only [Chain.addsRepeat, fits] at plain
          obtain ⟨size, route⟩ := innerIH below innerParted plain
          simp only [Chain.place, fits, Chain.size, size, true_and]
          exact .inside fits route
      | behind further =>
          obtain ⟨candidate, rest, rfl⟩ := List.exists_cons_of_ne_nil further.ne_nil
          have apart := parted.fit_apart further plain
          simp only [Chain.addsRepeat, apart] at plain
          obtain ⟨size, route⟩ := nextIH further nextParted plain
          simp only [Chain.place, apart, Chain.size, size, true_and]
          exact .behind route

/-- An insertion that adds a repeating node makes a chain larger. -/
theorem size_lt_size_place (chain : Chain) (entry : EntryRef) (fresh : Nat)
    (adds : chain.addsRepeat above stems = true) :
    chain.size < (chain.place entry fresh stems).size := by
  induction chain generalizing above stems with
  | empty => cases stems <;> simp [Chain.addsRepeat] at adds
  | node id stem own inner next innerIH nextIH =>
      cases stems with
      | nil => simp [Chain.addsRepeat] at adds
      | cons candidate rest =>
          rcases place_node_cases entry fresh id stem own inner next candidate rest with
            ⟨fits, placed⟩ | ⟨fits, placed⟩ | ⟨rfl, placed⟩ |
            ⟨wide, remaining, adoption, placed⟩
          all_goals rw [placed]
          · simp only [Chain.addsRepeat, fits] at adds
            have grown := nextIH adds
            simp only [Chain.size]
            omega
          · simp only [Chain.addsRepeat, fits] at adds
            have grown := innerIH adds
            simp only [Chain.size]
            omega
          · simp only [Chain.addsRepeat, Match.fit_self] at adds
            have grown := innerIH adds
            simp only [Chain.size]
            omega
          · simp only [Chain.size]
            omega

/-- Two nodes of a chain lead on to a match only if the first repeats its owner's stem. -/
theorem Parted.repeats_ne_zero (parted : (node id stem own inner next).Parted above)
    (leads : stem.LeadsTo candidate)
    (further : Route entry target next (candidate :: rest)) :
    (node id stem own inner next).repeats above ≠ 0 := by
  obtain ⟨later, member, leadsLater⟩ := further.exists_leadsTo
  have comparable := leads.fit leadsLater
  rcases parted.1 later member with apart | ⟨owner, owned, forks⟩
  · rw [apart] at comparable
    simp at comparable
  · cases forks with
    | here forks =>
        rw [forks] at comparable
        simp at comparable
    | inside fits deeper =>
        simp only [Chain.repeats, if_pos (show above = some stem from owned)]
        omega
    | behind apart further =>
        rw [apart] at comparable
        simp at comparable

/-- Where no node repeats the stem of its owner, matches lead to one node. -/
theorem Route.target_unique (route : Route entry left chain stems)
    (second : Route other right chain stems) (parted : chain.Parted above)
    (plain : chain.repeats above = 0) : left = right := by
  induction chain generalizing above stems with
  | empty => cases route
  | node id stem own inner next innerIH nextIH =>
      have parts := parted
      rcases parts with ⟨-, innerParted, nextParted⟩
      have innerPlain : inner.repeats (some stem) = 0 := by
        simp only [Chain.repeats] at plain
        omega
      have nextPlain : next.repeats above = 0 := by
        simp only [Chain.repeats] at plain
        omega
      cases route with
      | here stored =>
          cases second with
          | here stored' => rfl
          | used below => exact absurd rfl below.ne_nil
          | inside fits below => simp at fits
          | behind further =>
              exact absurd plain (parted.repeats_ne_zero (Or.inl rfl) further)
      | used below =>
          cases second with
          | here stored => exact absurd rfl below.ne_nil
          | used below' => exact innerIH below below' innerParted innerPlain
          | inside fits below' => simp at fits
          | behind further =>
              exact absurd plain (parted.repeats_ne_zero (Or.inl rfl) further)
      | inside fits below =>
          cases second with
          | here stored => simp at fits
          | used below' => simp at fits
          | inside fits' below' => exact innerIH below below' innerParted innerPlain
          | behind further =>
              exact absurd plain (parted.repeats_ne_zero (Or.inr fits) further)
      | behind further =>
          cases second with
          | here stored =>
              exact absurd plain (parted.repeats_ne_zero (Or.inl rfl) further)
          | used below =>
              exact absurd plain (parted.repeats_ne_zero (Or.inl rfl) further)
          | inside fits below =>
              exact absurd plain (parted.repeats_ne_zero (Or.inr fits) further)
          | behind further' => exact nextIH further further' nextParted nextPlain

end Chain

end PacketClassifier
