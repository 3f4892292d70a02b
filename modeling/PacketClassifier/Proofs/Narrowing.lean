import Mathlib.Algebra.GroupWithZero.Nat
import Mathlib.Algebra.Order.BigOperators.Group.List
import Mathlib.Algebra.Order.Group.Nat
import Mathlib.Data.Finset.Card
import Mathlib.Data.Nat.Count
import PacketClassifier.Proofs.LeadingBits

/-!
# How far matches can narrow

A stem comes under another one if it is on a later field, or if it is narrower.  The
rank of a match counts the bits of the fields before its own and those that it
constrains.  It grows whenever a stem comes under a different one, and no rank is
beyond the bits of all fields.
-/

namespace PacketClassifier

namespace Field

/-- The number of bits of all fields together. -/
def totalBits : Nat :=
  (all.map bits).sum

/-- The number of bits of the fields before a field. -/
def bitsBefore (field : Field) : Nat :=
  ((all.map bits).take field.index).sum

theorem bitsBefore_add_bits (field : Field) :
    field.bitsBefore + field.bits = ((all.map bits).take (field.index + 1)).sum := by
  have place : (all.map bits)[field.index]? = some field.bits := by
    rw [List.getElem?_map, all_getElem_index?]
    rfl
  obtain ⟨inside, here⟩ := List.getElem?_eq_some_iff.mp place
  rw [List.sum_take_succ _ _ inside, here, bitsBefore]

theorem bitsBefore_add_bits_le {earlier later : Field}
    (before : earlier.index < later.index) :
    earlier.bitsBefore + earlier.bits ≤ later.bitsBefore := by
  rw [bitsBefore_add_bits]
  exact (List.take_prefix_take_left before).sublist.sum_le_sum
    (fun _ _ => Nat.zero_le _)

theorem bitsBefore_add_bits_le_totalBits (field : Field) :
    field.bitsBefore + field.bits ≤ totalBits := by
  rw [bitsBefore_add_bits]
  exact (List.take_sublist _ _).sum_le_sum (fun _ _ => Nat.zero_le _)

end Field

theorem Word.popCount_eq_card (word : Word) :
    word.popCount =
      ((Finset.range 128).filter (fun i => word.getLsbD i = true)).card := by
  rw [← Nat.count_eq_card_filter_range, Nat.count, popCount]
  simp

namespace Match

variable {stem owner narrow wide : Match}

/-! ## Bits constrained -/

theorem popCount_mask_le (m : Match) : m.mask.popCount ≤ m.field.bits := by
  rw [Word.popCount_eq_card]
  calc ((Finset.range 128).filter (fun i => m.mask.getLsbD i = true)).card
      ≤ (Finset.range m.field.bits).card := by
        apply Finset.card_le_card
        intro i member
        have fixed := (Finset.mem_filter.mp member).2
        exact Finset.mem_range.mpr (Field.holds_iff_bits.mp m.mask_holds i fixed)
    _ = m.field.bits := Finset.card_range _

theorem popCount_mask_pos {m : Match} (proper : ¬ m.IsWildcard) :
    0 < m.mask.popCount := by
  rw [Word.popCount_eq_card, Finset.card_pos]
  by_contra none
  rw [Finset.not_nonempty_iff_eq_empty, Finset.filter_eq_empty_iff] at none
  apply proper
  apply BitVec.eq_of_getLsbD_eq
  intro i below
  simpa using none (Finset.mem_range.mpr below)

/-- A match that is strictly narrower constrains more bits. -/
theorem popCount_mask_lt (narrower : narrow.IsSubmatch wide)
    (different : narrow ≠ wide) : wide.mask.popCount < narrow.mask.popCount := by
  have bits := isSubmatch_iff_bits.mp narrower
  rw [Word.popCount_eq_card, Word.popCount_eq_card]
  apply Finset.card_lt_card
  refine Finset.ssubset_iff_subset_ne.mpr
    ⟨Finset.monotone_filter_right _ (fun i _ fixed => (bits.2 i fixed).1), ?_⟩
  intro same
  have masks : wide.mask = narrow.mask := by
    apply BitVec.eq_of_getLsbD_eq
    intro i below
    have inRange := Finset.mem_range.mpr below
    have here := Finset.ext_iff.mp same i
    simp only [Finset.mem_filter, inRange, true_and] at here
    exact Bool.eq_iff_iff.mpr here
  refine different (Match.ext narrower.1 ?_ masks.symm)
  rw [← narrower.2.2, masks, narrow.value_masked]

/-! ## Stems under stems -/

/-- A stem on a later field than its owner, or a narrower one. -/
def Under (stem owner : Match) : Prop :=
  owner.field.index < stem.field.index ∨ owner.IsLeading ∧ stem.IsSubmatch owner

/-- Where the fields are the same, a stem under another one is narrower. -/
theorem Under.isSubmatch (under : stem.Under owner) (same : stem.field = owner.field) :
    owner.IsLeading ∧ stem.IsSubmatch owner := by
  rcases under with later | narrower
  · rw [same] at later
    exact absurd later (Nat.lt_irrefl _)
  · exact narrower

/-- The bits of the fields before that of a match, and the bits that it constrains. -/
def rank (m : Match) : Nat :=
  m.field.bitsBefore + m.mask.popCount

theorem rank_le (m : Match) : m.rank ≤ Field.totalBits :=
  (Nat.add_le_add_left m.popCount_mask_le _).trans
    m.field.bitsBefore_add_bits_le_totalBits

/-- A stem under a different one ranks higher. -/
theorem Under.rank_lt (under : stem.Under owner) (proper : ¬ stem.IsWildcard)
    (different : stem ≠ owner) : owner.rank < stem.rank := by
  rcases under with later | ⟨-, narrower⟩
  · calc owner.rank
        ≤ owner.field.bitsBefore + owner.field.bits :=
          Nat.add_le_add_left owner.popCount_mask_le _
      _ ≤ stem.field.bitsBefore := Field.bitsBefore_add_bits_le later
      _ < stem.rank := Nat.lt_add_of_pos_right (popCount_mask_pos proper)
  · rw [rank, rank, narrower.1]
    exact Nat.add_lt_add_left (popCount_mask_lt narrower different) _

end Match

end PacketClassifier
