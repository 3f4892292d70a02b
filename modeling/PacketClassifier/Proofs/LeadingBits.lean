import PacketClassifier.Proofs.MatchBits

/-!
# Matches on leading bits

The matches on leading bits that are wider than a given match are comparable, and what
two matches share is the narrowest one that is wider than both.  So the order of matches
alone says how a match fits a stem, whatever their bits are.
-/

namespace PacketClassifier

/-- A word whose highest bits are set has a leading run of them. -/
theorem Word.le_leadingRun {word : Word} {width length : Nat}
    (bound : length ≤ width)
    (set : ∀ i < width, width ≤ length + i → word.getLsbD i = true) :
    length ≤ word.leadingRun width := by
  induction width generalizing length with
  | zero => exact bound
  | succ width ih =>
      cases length with
      | zero => exact Nat.zero_le _
      | succ length =>
          have top := set width (by omega) (by omega)
          simp only [Word.leadingRun, top, if_true]
          refine Nat.succ_le_succ (ih (by omega) ?_)
          exact fun i below inside => set i (by omega) (by omega)

namespace Match

variable {stem candidate shared narrow wide bound first second : Match}

theorem IsSubmatch.antisymm (lower : narrow.IsSubmatch wide)
    (upper : wide.IsSubmatch narrow) : narrow = wide := by
  have masks : narrow.mask = wide.mask := by
    rw [← lower.2.1, BitVec.and_comm, upper.2.1]
  refine Match.ext lower.1 ?_ masks
  rw [← lower.2.2, ← masks, narrow.value_masked]

theorem not_isWildcard_of_isSubmatch (narrower : narrow.IsSubmatch wide)
    (proper : ¬ wide.IsWildcard) : ¬ narrow.IsWildcard := by
  intro free
  have masked := narrower.2.1
  rw [show narrow.mask = 0#128 from free, BitVec.zero_and] at masked
  exact proper masked.symm

/-! ## The order of matches on leading bits -/

/-- A match constrains a run of the leading bits of its field. -/
def IsLeading (m : Match) : Prop :=
  ∃ length, m.mask = m.field.leadingMask length

theorem isLeading_truncate (m : Match) (length : Nat) :
    (m.truncate length).IsLeading :=
  ⟨length, rfl⟩

theorem mask_of_prefixLength? {m : Match} {length : Nat}
    (found : m.prefixLength? = some length) : m.mask = m.field.leadingMask length := by
  simp only [prefixLength?] at found
  split at found
  · rename_i leading
    exact Option.some.inj found ▸ leading.symm
  · cases found

/-- Of two matches on leading bits that intersect, the longer is narrower. -/
theorem Intersects.isSubmatch_of_length_le {shorter longer : Nat} (order : shorter ≤ longer)
    (firstMask : first.mask = first.field.leadingMask longer)
    (secondMask : second.mask = second.field.leadingMask shorter)
    (common : first.Intersects second) : first.IsSubmatch second := by
  rw [intersects_iff_bits] at common
  obtain ⟨field, agree⟩ := common
  refine isSubmatch_iff_bits.mpr ⟨field, fun i fixed => ?_⟩
  have firstFixed : first.mask.getLsbD i = true := by
    rw [secondMask, ← field] at fixed
    rw [firstMask]
    simp only [Field.getLsbD_leadingMask, decide_eq_true_eq] at fixed ⊢
    omega
  exact ⟨firstFixed, agree i firstFixed fixed⟩

/-- Matches on leading bits that intersect are nested. -/
theorem IsLeading.isSubmatch_or (leadingFirst : first.IsLeading)
    (leadingSecond : second.IsLeading) (common : first.Intersects second) :
    first.IsSubmatch second ∨ second.IsSubmatch first := by
  rcases leadingFirst with ⟨firstLength, firstMask⟩
  rcases leadingSecond with ⟨secondLength, secondMask⟩
  rcases Nat.le_total secondLength firstLength with order | order
  · exact Or.inl (common.isSubmatch_of_length_le order firstMask secondMask)
  · exact Or.inr (common.symm.isSubmatch_of_length_le order secondMask firstMask)

/-- Matches on leading bits that are wider than a third are comparable. -/
theorem IsLeading.comparable (leadingFirst : first.IsLeading)
    (leadingSecond : second.IsLeading) (inFirst : narrow.IsSubmatch first)
    (inSecond : narrow.IsSubmatch second) :
    first.IsSubmatch second ∨ second.IsSubmatch first :=
  leadingFirst.isSubmatch_or leadingSecond (inSecond.intersects.widen inFirst)

/-- The narrowest match on leading bits that is wider than two others. -/
structure IsShared (stem candidate shared : Match) : Prop where
  leading : shared.IsLeading
  left : stem.IsSubmatch shared
  right : candidate.IsSubmatch shared
  least : ∀ bound : Match, bound.IsLeading → stem.IsSubmatch bound →
    candidate.IsSubmatch bound → shared.IsSubmatch bound

theorem IsShared.unique (one : IsShared stem candidate first)
    (other : IsShared stem candidate second) : first = second :=
  (one.least second other.leading other.left other.right).antisymm
    (other.least first one.leading one.left one.right)

theorem agreement_of_isSubmatch (inStem : stem.IsSubmatch bound)
    (inCandidate : candidate.IsSubmatch bound) {i : Nat}
    (fixed : bound.mask.getLsbD i = true) :
    (stem.agreement candidate).getLsbD i = true := by
  rw [isSubmatch_iff_bits] at inStem inCandidate
  obtain ⟨stemFixed, stemValue⟩ := inStem.2 i fixed
  obtain ⟨candidateFixed, candidateValue⟩ := inCandidate.2 i fixed
  have inWord : i < 128 := BitVec.lt_of_getLsbD fixed
  simp only [agreement, BitVec.getLsbD_and, BitVec.getLsbD_not, BitVec.getLsbD_xor,
    stemFixed, candidateFixed, stemValue, candidateValue, inWord]
  simp

theorem isShared_of_alike? (found : stem.alike? candidate = some shared) :
    IsShared stem candidate shared := by
  refine ⟨?_, alike?_left found, alike?_right found, ?_⟩
  · unfold alike? at found
    split at found
    · cases found
      exact isLeading_truncate _ _
    · cases found
  · rintro bound ⟨length, mask⟩ inStem inCandidate
    unfold alike? at found
    split at found
    · cases found
      have fieldStem : stem.field = bound.field := inStem.1
      have run : min length stem.field.bits ≤
          (stem.agreement candidate).leadingRun stem.field.bits := by
        apply Word.le_leadingRun (Nat.min_le_right _ _)
        intro i below inside
        apply agreement_of_isSubmatch inStem inCandidate
        rw [mask, ← fieldStem, Field.getLsbD_leadingMask, decide_eq_true_eq]
        omega
      rw [isSubmatch_iff_bits]
      refine ⟨fieldStem, fun i fixed => ?_⟩
      have value := ((isSubmatch_iff_bits.mp inStem).2 i fixed).2
      rw [mask, ← fieldStem, Field.getLsbD_leadingMask, decide_eq_true_eq] at fixed
      have inRun : (stem.field.leadingMask ((stem.agreement candidate).leadingRun
          stem.field.bits)).getLsbD i = true := by
        rw [Field.getLsbD_leadingMask, decide_eq_true_eq]
        omega
      simp only [truncate, BitVec.getLsbD_and, inRun, Bool.and_true]
      exact ⟨trivial, value⟩
    · cases found

theorem IsShared.exists_of_field_eq (same : stem.field = candidate.field) :
    ∃ shared, stem.alike? candidate = some shared ∧
      IsShared stem candidate shared := by
  have found : stem.alike? candidate = some (stem.truncate
      ((stem.agreement candidate).leadingRun stem.field.bits)) := by
    rw [alike?, if_pos same]
  exact ⟨_, found, isShared_of_alike? found⟩

/-! ## Fits by the order of matches -/

@[simp]
theorem fit_self (m : Match) : m.fit m = .equal := by
  simp [fit]

theorem ne_of_fit_ne_equal (fits : stem.fit candidate ≠ .equal) :
    stem ≠ candidate := by
  rintro rfl
  exact fits (fit_self stem)

/-- What a fit is, by what stem and candidate share. -/
theorem fit_of_isShared (different : stem ≠ candidate)
    (shares : IsShared stem candidate shared) :
    stem.fit candidate =
      if shared.IsWildcard then .apart
      else if shared = stem then .inside
      else if shared = candidate then .around
      else .fork shared := by
  obtain ⟨other, found, otherShares⟩ :=
    IsShared.exists_of_field_eq (shares.left.1.trans shares.right.1.symm)
  rw [fit, if_neg different, found, shares.unique otherShares]

theorem fit_eq_inside_iff :
    stem.fit candidate = .inside ↔
      stem ≠ candidate ∧ candidate.IsSubmatch stem ∧ stem.IsLeading ∧
        ¬ stem.IsWildcard := by
  constructor
  · intro fits
    have different := ne_of_fit_ne_equal (by rw [fits]; simp)
    have narrower := fit_inside fits
    obtain ⟨shared, -, shares⟩ := IsShared.exists_of_field_eq narrower.1.symm
    rw [fit_of_isShared different shares] at fits
    split at fits
    · cases fits
    · rename_i proper
      split at fits
      · rename_i same
        subst same
        exact ⟨different, narrower, shares.leading, proper⟩
      · split at fits <;> cases fits
  · rintro ⟨different, narrower, leading, proper⟩
    have shares : IsShared stem candidate stem :=
      ⟨leading, .refl stem, narrower, fun _ _ inBound _ => inBound⟩
    rw [fit_of_isShared different shares, if_neg proper, if_pos rfl]

theorem fit_eq_around_iff :
    stem.fit candidate = .around ↔
      stem ≠ candidate ∧ stem.IsSubmatch candidate ∧ candidate.IsLeading ∧
        ¬ candidate.IsWildcard := by
  constructor
  · intro fits
    have different := ne_of_fit_ne_equal (by rw [fits]; simp)
    have narrower := fit_around fits
    obtain ⟨shared, -, shares⟩ := IsShared.exists_of_field_eq narrower.1
    rw [fit_of_isShared different shares] at fits
    split at fits
    · cases fits
    · rename_i proper
      split at fits
      · cases fits
      · split at fits
        · rename_i same
          subst same
          exact ⟨different, narrower, shares.leading, proper⟩
        · cases fits
  · rintro ⟨different, narrower, leading, proper⟩
    have shares : IsShared stem candidate candidate :=
      ⟨leading, narrower, .refl candidate, fun _ _ _ inBound => inBound⟩
    rw [fit_of_isShared different shares, if_neg proper, if_neg different.symm,
      if_pos rfl]

theorem fit_eq_fork_iff :
    stem.fit candidate = .fork shared ↔
      stem ≠ candidate ∧ IsShared stem candidate shared ∧ ¬ shared.IsWildcard ∧
        shared ≠ stem ∧ shared ≠ candidate := by
  constructor
  · intro fits
    have different := ne_of_fit_ne_equal (by rw [fits]; simp)
    have narrower := fit_fork fits
    obtain ⟨found, -, shares⟩ :=
      IsShared.exists_of_field_eq (narrower.1.1.trans narrower.2.1.symm)
    rw [fit_of_isShared different shares] at fits
    split at fits
    · cases fits
    · rename_i proper
      split at fits
      · cases fits
      · rename_i notStem
        split at fits
        · cases fits
        · rename_i notCandidate
          cases fits
          exact ⟨different, shares, proper, notStem, notCandidate⟩
  · rintro ⟨different, shares, proper, notStem, notCandidate⟩
    rw [fit_of_isShared different shares, if_neg proper, if_neg notStem,
      if_neg notCandidate]

/-- Matches are apart if only wildcards are wider than both. -/
theorem fit_eq_apart_iff :
    stem.fit candidate = .apart ↔
      stem ≠ candidate ∧ ∀ bound : Match, bound.IsLeading →
        stem.IsSubmatch bound → candidate.IsSubmatch bound → bound.IsWildcard := by
  by_cases same : stem.field = candidate.field
  · obtain ⟨shared, -, shares⟩ := IsShared.exists_of_field_eq same
    constructor
    · intro fits
      have different := ne_of_fit_ne_equal (by rw [fits]; simp)
      refine ⟨different, fun bound leading inStem inCandidate => ?_⟩
      apply Decidable.byContradiction
      intro proper
      have properShared := not_isWildcard_of_isSubmatch
        (shares.least bound leading inStem inCandidate) proper
      rw [fit_of_isShared different shares, if_neg properShared] at fits
      split at fits
      · cases fits
      · split at fits <;> cases fits
    · rintro ⟨different, free⟩
      rw [fit_of_isShared different shares,
        if_pos (free shared shares.leading shares.left shares.right)]
  · constructor
    · intro _
      refine ⟨fun equal => same (equal ▸ rfl), fun bound _ inStem inCandidate => ?_⟩
      exact absurd (inStem.1.trans inCandidate.1.symm) same
    · exact fun _ => fit_of_field_ne same

theorem fit_apart_symm (apart : stem.fit candidate = .apart) :
    candidate.fit stem = .apart := by
  rw [fit_eq_apart_iff] at *
  exact ⟨apart.1.symm, fun bound leading inCandidate inStem =>
    apart.2 bound leading inStem inCandidate⟩

/-- Where a stem is apart from a match, a wider stem is so, too. -/
theorem fit_apart_widen (apart : stem.fit candidate = .apart)
    (narrower : stem.IsSubmatch wide) (leading : wide.IsLeading)
    (proper : ¬ wide.IsWildcard) : wide.fit candidate = .apart := by
  rw [fit_eq_apart_iff] at *
  refine ⟨?_, fun bound leadingBound inWide inCandidate =>
    apart.2 bound leadingBound (narrower.trans inWide) inCandidate⟩
  rintro rfl
  exact proper (apart.2 wide leading narrower (.refl wide))

/-- A wider stem forks with a match as well, as long as it is narrower than the fork. -/
theorem fit_fork_widen (forks : stem.fit candidate = .fork shared)
    (narrower : stem.IsSubmatch wide) (leading : wide.IsLeading)
    (within : wide.IsSubmatch shared) (different : wide ≠ shared) :
    wide.fit candidate = .fork shared := by
  rw [fit_eq_fork_iff] at *
  obtain ⟨-, shares, proper, -, notCandidate⟩ := forks
  refine ⟨?_, ⟨shares.leading, within, shares.right, ?_⟩, proper, different.symm,
    notCandidate⟩
  · rintro rfl
    exact different (within.antisymm
      (shares.least wide leading narrower (.refl wide)))
  · exact fun bound leadingBound inWide inCandidate =>
      shares.least bound leadingBound (narrower.trans inWide) inCandidate

/-- A match is inside what it shares with a stem that it forks with. -/
theorem fit_shared (forks : stem.fit candidate = .fork shared) :
    shared.fit candidate = .inside := by
  rw [fit_eq_fork_iff] at forks
  obtain ⟨-, shares, proper, -, notCandidate⟩ := forks
  exact fit_eq_inside_iff.mpr ⟨notCandidate, shares.right, shares.leading, proper⟩

/-! ## Stems on the way of a match -/

/-- The match is used up at the stem, or the way goes on below the stem. -/
def LeadsTo (stem candidate : Match) : Prop :=
  stem = candidate ∨ stem.fit candidate = .inside

theorem LeadsTo.isSubmatch (leads : stem.LeadsTo candidate) :
    candidate.IsSubmatch stem := by
  rcases leads with rfl | inside
  · exact .refl stem
  · exact fit_inside inside

/-- A strictly wider stem on leading bits has the way go on below it. -/
theorem LeadsTo.widen (leads : stem.LeadsTo candidate)
    (narrower : stem.IsSubmatch wide) (leading : wide.IsLeading)
    (proper : ¬ wide.IsWildcard) (different : wide ≠ stem) :
    wide.fit candidate = .inside := by
  refine fit_eq_inside_iff.mpr ⟨?_, leads.isSubmatch.trans narrower, leading, proper⟩
  rintro rfl
  exact different (leads.isSubmatch.antisymm narrower)

/-- Two stems on the way of one match are comparable. -/
theorem LeadsTo.fit (leadsFirst : first.LeadsTo candidate)
    (leadsSecond : second.LeadsTo candidate) :
    first.fit second = .equal ∨ first.fit second = .inside ∨
      first.fit second = .around := by
  by_cases same : first = second
  · exact Or.inl (same ▸ fit_self first)
  · right
    rw [fit_eq_inside_iff, fit_eq_around_iff]
    rcases leadsFirst with rfl | insideFirst
    · have below := leadsSecond.resolve_left (Ne.symm same)
      rw [fit_eq_inside_iff] at below
      exact Or.inr ⟨same, below.2⟩
    · rw [fit_eq_inside_iff] at insideFirst
      obtain ⟨-, inFirst, leading, proper⟩ := insideFirst
      rcases leadsSecond with rfl | insideSecond
      · exact Or.inl ⟨same, inFirst, leading, proper⟩
      · rw [fit_eq_inside_iff] at insideSecond
        obtain ⟨-, inSecond, leadingSecond, properSecond⟩ := insideSecond
        rcases leading.comparable leadingSecond inFirst inSecond with lower | upper
        · exact Or.inr ⟨same, lower, leadingSecond, properSecond⟩
        · exact Or.inl ⟨same, upper, leading, proper⟩

/-- What is apart from a stem on the way of a match is apart from the match. -/
theorem LeadsTo.fit_apart (leads : wide.LeadsTo candidate)
    (apart : stem.fit wide = .apart) : stem.fit candidate = .apart := by
  rcases leads with rfl | inside
  · exact apart
  · rw [fit_eq_inside_iff] at inside
    obtain ⟨-, narrower, leading, proper⟩ := inside
    rw [fit_eq_apart_iff] at *
    constructor
    · rintro rfl
      exact proper (apart.2 wide leading narrower (.refl wide))
    · intro bound leadingBound inStem inCandidate
      rcases leading.comparable leadingBound narrower inCandidate with lower | upper
      · exact apart.2 bound leadingBound inStem lower
      · exact absurd (apart.2 wide leading (inStem.trans upper) (.refl wide)) proper

/-- What forks with a stem on the way of a match forks with the match there. -/
theorem LeadsTo.fit_fork (leads : wide.LeadsTo candidate)
    (forks : stem.fit wide = .fork shared) : stem.fit candidate = .fork shared := by
  rcases leads with rfl | inside
  · exact forks
  · rw [fit_eq_inside_iff] at inside
    obtain ⟨-, narrower, leading, -⟩ := inside
    rw [fit_eq_fork_iff] at *
    obtain ⟨-, shares, proper, notStem, notWide⟩ := forks
    -- a stem below `wide` would share all of `wide`
    have outside : ∀ bound : Match, stem.IsSubmatch bound → ¬ bound.IsSubmatch wide :=
      fun bound inStem upper => notWide (shares.right.antisymm
        (shares.least wide leading (inStem.trans upper) (.refl wide))).symm
    refine ⟨?_, ⟨shares.leading, shares.left, narrower.trans shares.right, ?_⟩, proper,
      notStem, ?_⟩
    · rintro rfl
      exact outside stem (.refl stem) narrower
    · intro bound leadingBound inStem inCandidate
      rcases leading.comparable leadingBound narrower inCandidate with lower | upper
      · exact shares.least bound leadingBound inStem lower
      · exact absurd upper (outside bound inStem)
    · rintro rfl
      exact outside shared shares.left narrower

end Match

end PacketClassifier
