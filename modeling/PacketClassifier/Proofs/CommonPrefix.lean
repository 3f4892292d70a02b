import PacketClassifier.Proofs.LeadingBits

/-!
# What two matches share

Two matches on a field have a narrowest match on leading bits that both fall under, whatever
bits their masks select.  It is as long as the run of ones at the top of a word when the bits
that the two agree on are moved up there, so that the field ends where the word does.
-/

namespace PacketClassifier

namespace Word

/-! ## Runs at the top of a word -/

/-- The number of set bits at the top of a word, above the first one that is clear. -/
def leadingOnes (word : Word) : Nat :=
  (~~~word).clz.toNat

theorem leadingOnes_le (word : Word) : word.leadingOnes ≤ 128 :=
  BitVec.le_def.mp BitVec.clz_le

theorem getLsbD_of_leadingOnes {word : Word} {i : Nat} (inWord : i < 128)
    (inRun : 128 ≤ word.leadingOnes + i) : word.getLsbD i = true := by
  have small : (~~~word).toNat < 2 ^ i :=
    Nat.lt_of_lt_of_le BitVec.toNat_lt_two_pow_sub_clz
      (Nat.pow_le_pow_right (by decide) (Nat.sub_le_iff_le_add'.mpr inRun))
  have clear : (~~~word).getLsbD i = false := Nat.testBit_lt_two_pow small
  simpa [inWord] using clear

/-- The bit below the run is clear. -/
theorem getLsbD_leadingOnes {word : Word} (ends : word.leadingOnes < 128) :
    word.getLsbD (127 - word.leadingOnes) = false := by
  have nonzero : ~~~word ≠ 0#128 := by
    rw [← BitVec.clz_lt_iff_ne_zero]
    exact ends
  have set := BitVec.getLsbD_true_clz_of_ne_zero (by decide) nonzero
  rw [BitVec.getLsbD_not, Bool.and_eq_true, Bool.not_eq_true'] at set
  exact set.2

/-- The word in which the bits below `width` are at the top. -/
def aligned (word : Word) (width : Nat) : Word :=
  word <<< (128 - width)

theorem getLsbD_aligned (word : Word) {width i : Nat} (below : i < 128) :
    (word.aligned width).getLsbD i =
      (decide (128 - width ≤ i) && word.getLsbD (i - (128 - width))) := by
  rw [aligned, BitVec.getLsbD_shiftLeft, decide_eq_true below, Bool.true_and, ← decide_not]
  simp only [Nat.not_lt]

/-- A run of set bits is as long as the bits from the highest one down to a clear bit. -/
theorem leadingRun_eq_of {word : Word} {width length : Nat} (bound : length ≤ width)
    (set : ∀ i < width, width ≤ length + i → word.getLsbD i = true)
    (ends : length < width → word.getLsbD (width - (length + 1)) = false) :
    word.leadingRun width = length := by
  induction width generalizing length with
  | zero => exact (Nat.le_zero.mp bound).symm
  | succ below ih =>
      cases length with
      | zero =>
          have clear := ends (Nat.succ_pos below)
          rw [Nat.zero_add, Nat.add_sub_cancel] at clear
          simp [leadingRun, clear]
      | succ length =>
          have top := set below (by omega) (by omega)
          have rest : word.leadingRun below = length := by
            apply ih (Nat.le_of_succ_le_succ bound)
            · exact fun i inside inRun => set i (by omega) (by omega)
            · intro shorter
              rw [← Nat.add_sub_add_right below 1 (length + 1)]
              exact ends (Nat.succ_lt_succ shorter)
          rw [leadingRun, if_pos top, rest]

/-- A run of set bits is at the top of the word when it is moved up there. -/
theorem leadingRun_eq_leadingOnes (word : Word) {width : Nat} (inWord : width ≤ 128) :
    word.leadingRun width = (word.aligned width).leadingOnes := by
  have ones := (word.aligned width).leadingOnes_le
  have moved (i : Nat) (below : i < 128)
      (inRun : 128 ≤ (word.aligned width).leadingOnes + i) :
      128 - width ≤ i ∧ word.getLsbD (i - (128 - width)) = true := by
    simpa [getLsbD_aligned word below] using getLsbD_of_leadingOnes below inRun
  apply leadingRun_eq_of
  · -- a longer run would reach the clear bits that move in from below
    apply Nat.not_lt.mp
    intro longer
    have inside := (moved (127 - width) (by omega) (by omega)).1
    omega
  · intro i below inRun
    have set := (moved (i + (128 - width)) (by omega) (by omega)).2
    rwa [Nat.add_sub_cancel] at set
  · intro shorter
    have clear := getLsbD_leadingOnes (show (word.aligned width).leadingOnes < 128 by omega)
    rw [getLsbD_aligned word (by omega), decide_eq_true (by omega), Bool.true_and] at clear
    rw [← clear]
    congr 1
    omega

end Word

namespace Match

variable {stem candidate shared : Match}

/-! ## The narrowest common match on leading bits -/

theorem IsShared.symm (shares : IsShared stem candidate shared) :
    IsShared candidate stem shared where
  leading := shares.leading
  left := shares.right
  right := shares.left
  least bound leading inCandidate inStem := shares.least bound leading inStem inCandidate

theorem IsShared.isSubmatch_iff (shares : IsShared stem candidate shared) {bound : Match}
    (leading : bound.IsLeading) :
    shared.IsSubmatch bound ↔ stem.IsSubmatch bound ∧ candidate.IsSubmatch bound := by
  constructor
  · exact fun wider => ⟨shares.left.trans wider, shares.right.trans wider⟩
  · exact fun both => shares.least bound leading both.1 both.2

theorem alike?_comm (stem candidate : Match) :
    stem.alike? candidate = candidate.alike? stem := by
  by_cases same : stem.field = candidate.field
  · obtain ⟨shared, found, shares⟩ := IsShared.exists_of_field_eq same
    obtain ⟨other, otherFound, otherShares⟩ := IsShared.exists_of_field_eq same.symm
    rw [found, otherFound, shares.unique otherShares.symm]
  · rw [alike?, if_neg same, alike?, if_neg (Ne.symm same)]

/-- A match shares all of itself with itself exactly if it is one on leading bits. -/
theorem alike?_self_eq_iff (m : Match) : m.alike? m = some m ↔ m.IsLeading := by
  constructor
  · exact fun found => (isShared_of_alike? found).leading
  · intro leading
    obtain ⟨shared, found, shares⟩ := IsShared.exists_of_field_eq (Eq.refl m.field)
    have whole : IsShared m m m := ⟨leading, .refl m, .refl m, fun _ _ inBound _ => inBound⟩
    rw [found, shares.unique whole]

/-- What two matches share is cut off where the run of bits that they agree on ends. -/
theorem alike?_eq_truncate (same : stem.field = candidate.field) :
    stem.alike? candidate = some (stem.truncate
      ((stem.agreement candidate).aligned stem.field.bits).leadingOnes) := by
  rw [alike?, if_pos same, Word.leadingRun_eq_leadingOnes _ stem.field.bits_le]

/--
Matches on a field share a match on leading bits, which is found from the bits that they agree
on.  Both fall under it, and under just those matches on leading bits that it falls under
itself.  It does not depend on the order of the two, and a match shares all of itself with
itself exactly if it is one on leading bits.
-/
theorem alike?_narrowest (left right : Match) (same : left.field = right.field) :
    ∃ shared, left.alike? right = some shared ∧
      shared = left.truncate
        ((left.agreement right).aligned left.field.bits).leadingOnes ∧
      shared.IsLeading ∧ left.IsSubmatch shared ∧ right.IsSubmatch shared ∧
      (∀ bound : Match, bound.IsLeading →
        (left.IsSubmatch bound ∧ right.IsSubmatch bound ↔ shared.IsSubmatch bound)) ∧
      right.alike? left = some shared ∧
      (left.alike? left = some left ↔ left.IsLeading) := by
  obtain ⟨shared, found, shares⟩ := IsShared.exists_of_field_eq same
  have cut : some shared = some _ := found.symm.trans (alike?_eq_truncate same)
  refine ⟨shared, found, Option.some.inj cut, shares.leading, shares.left, shares.right,
    fun bound leading => (shares.isSubmatch_iff leading).symm, ?_, alike?_self_eq_iff left⟩
  rw [alike?_comm, found]

/-- A host of a network, by its number there. -/
def networkHost (number : Word) : Match :=
  ⟨.ipv6Src, 0x20010DB8 <<< 96 ||| number, BitVec.allOnes 128, by decide, BitVec.and_allOnes⟩

/-- The part of the network for the hosts up to 3. -/
def networkPart : Match :=
  ⟨.ipv6Src, 0x20010DB8 <<< 96, BitVec.allOnes 128 <<< 2, by decide, by decide⟩

/-- Two hosts share all but the last two bits of their addresses, which are as wide as a word. -/
theorem networkHost_alike?_narrowest :
    (networkHost 1).field = (networkHost 2).field ∧
      (networkHost 1).alike? (networkHost 2) = some networkPart ∧
      (networkHost 2).alike? (networkHost 1) = some networkPart ∧
      (networkHost 1).alike? (networkHost 1) = some (networkHost 1) ∧
      ∀ bound : Match, bound.IsLeading →
        ((networkHost 1).IsSubmatch bound ∧ (networkHost 2).IsSubmatch bound ↔
          networkPart.IsSubmatch bound) := by
  obtain ⟨shared, found, -, -, -, -, narrowest, swapped, whole⟩ :=
    alike?_narrowest (networkHost 1) (networkHost 2) rfl
  have computed : (networkHost 1).alike? (networkHost 2) = some networkPart := by
    decide +kernel
  obtain rfl := Option.some.inj (found.symm.trans computed)
  exact ⟨rfl, found, swapped, whole.mpr ⟨128, by decide⟩, narrowest⟩

end Match

end PacketClassifier
