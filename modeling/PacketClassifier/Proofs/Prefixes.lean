import Mathlib.Order.Interval.Finset.Nat
import PacketClassifier.Proofs.Narrowing

/-!
# Prefixes

A prefix is a match on a run of the leading bits of a field.  Its length is found by counting
the bits of the mask and comparing with the mask of that many leading bits, so a mask with gaps
has none.  Two prefixes intersect only if one of them is within the other.
-/

namespace PacketClassifier

/-- There are as many leading bits in a mask as it was made for. -/
theorem Field.popCount_leadingMask (field : Field) {length : Nat}
    (bound : length ≤ field.bits) : (field.leadingMask length).popCount = length := by
  have inWord := field.bits_le
  rw [Word.popCount_eq_card]
  calc ((Finset.range 128).filter (fun i => (field.leadingMask length).getLsbD i = true)).card
      = (Finset.Ico (field.bits - length) field.bits).card := by
        congr 1
        ext i
        simp only [Finset.mem_filter, Finset.mem_range, Finset.mem_Ico, getLsbD_leadingMask,
          decide_eq_true_eq]
        omega
    _ = length := by
        rw [Nat.card_Ico]
        omega

namespace Match

variable {m left right : Match} {field : Field} {value mask : Word} {length : Nat}

/-! ## Matches that can be made -/

/-- A match can be made of words that the field holds, and has the bits that the mask selects. -/
theorem masked_eq_ok_iff :
    masked field value mask = .ok m ↔
      field.Holds value ∧ m.field = field ∧ m.value = value &&& mask ∧ m.mask = mask := by
  unfold masked
  split
  · rename_i valueFits
    split
    · constructor
      · intro made
        cases made
        exact ⟨valueFits, rfl, rfl, rfl⟩
      · rintro ⟨-, rfl, values, rfl⟩
        exact congrArg Except.ok (Match.ext rfl values.symm rfl)
    · rename_i wide
      refine iff_of_false (by simp) ?_
      rintro ⟨-, rfl, -, rfl⟩
      exact wide m.mask_holds
  · rename_i wide
    exact iff_of_false (by simp) fun parts => wide parts.1

theorem leading_eq_ok_iff :
    leading field value length = .ok m ↔
      length ≤ field.bits ∧ field.Holds value ∧ m.field = field ∧
        m.value = value &&& m.mask ∧ m.mask = field.leadingMask length := by
  unfold leading
  split
  · rename_i long
    exact iff_of_false (by simp) fun parts => absurd parts.1 (Nat.not_le.mpr long)
  · rename_i fits
    rw [masked_eq_ok_iff, and_iff_right (Nat.not_lt.mp fits)]
    constructor
    · rintro ⟨holds, same, values, masks⟩
      exact ⟨holds, same, masks.symm ▸ values, masks⟩
    · rintro ⟨holds, same, values, masks⟩
      exact ⟨holds, same, masks ▸ values, masks⟩

/-! ## Lengths of prefixes -/

theorem prefixLength?_eq_some_iff :
    m.prefixLength? = some length ↔
      length ≤ m.field.bits ∧ m.mask = m.field.leadingMask length := by
  constructor
  · intro found
    have masks := mask_of_prefixLength? found
    refine ⟨?_, masks⟩
    have counted : length = m.mask.popCount := by
      unfold prefixLength? at found
      grind
    exact counted ▸ m.popCount_mask_le
  · rintro ⟨bound, masks⟩
    simp only [prefixLength?, masks, m.field.popCount_leadingMask bound, if_true]

/-- A mask is that of the leading bits if these are the bits that it has. -/
theorem mask_eq_leadingMask_iff (bound : length ≤ m.field.bits) :
    m.mask = m.field.leadingMask length ↔
      ∀ i, m.mask.getLsbD i = decide (m.field.bits - length ≤ i ∧ i < m.field.bits) := by
  have places (i : Nat) : (m.field.leadingMask length).getLsbD i =
      decide (m.field.bits - length ≤ i ∧ i < m.field.bits) := by
    rw [Field.getLsbD_leadingMask, decide_eq_decide]
    omega
  constructor
  · intro masks i
    rw [masks, places]
  · intro bits
    apply BitVec.eq_of_getLsbD_eq
    intro i _
    rw [bits, places]

/--
A prefix can be made of every value that the field holds, with every length up to the width of
the field, and its length is found again.  A length is found just for the matches that fix that
many of the highest bits of their field and no others, and these are the prefixes of their own
values.
-/
theorem prefixLength?_leading :
    (∀ (field : Field) (value : Word) (length : Nat), field.Holds value →
      length ≤ field.bits →
        ∃ m, leading field value length = .ok m ∧ m.field = field ∧
          m.value = value &&& m.mask ∧ m.prefixLength? = some length) ∧
    ∀ (m : Match) (length : Nat),
      (m.prefixLength? = some length ↔
        length ≤ m.field.bits ∧
          ∀ i, m.mask.getLsbD i = decide (m.field.bits - length ≤ i ∧ i < m.field.bits)) ∧
      (m.prefixLength? = some length → leading m.field m.value length = .ok m) := by
  refine ⟨fun field value length holds bound => ?_, fun m length => ⟨?_, fun found => ?_⟩⟩
  · let made : Match := ⟨field, value &&& field.leadingMask length, field.leadingMask length,
      field.holds_leadingMask length, and_mask_masked _ _⟩
    exact ⟨made, leading_eq_ok_iff.mpr ⟨bound, holds, rfl, rfl, rfl⟩, rfl, rfl,
      prefixLength?_eq_some_iff.mpr ⟨bound, rfl⟩⟩
  · rw [prefixLength?_eq_some_iff]
    exact and_congr_right mask_eq_leadingMask_iff
  · obtain ⟨bound, masks⟩ := prefixLength?_eq_some_iff.mp found
    exact leading_eq_ok_iff.mpr ⟨bound, m.holds_value, rfl, m.value_masked.symm, masks⟩

/-- The addresses of a network, by their first 32 bits. -/
def site : Match :=
  ⟨.ipv6Dst, 0x20010DB8 <<< 96, BitVec.allOnes 128 <<< 96, by decide, by decide⟩

/-- One address of the network of `site`. -/
def desk : Match :=
  ⟨.ipv6Dst, 0x20010DB8 <<< 96 ||| 1, BitVec.allOnes 128, by decide, by decide⟩

/-- As many bits as a prefix of 16 bits has, but with a gap. -/
def gapped : Match :=
  ⟨.ipv4Src, 0x0A000100, 0xFF00FF00, by decide, by decide⟩

/-- The whole width of a word and no bit at all are lengths of prefixes; a gap leaves none. -/
theorem site_prefixLength? :
    site.prefixLength? = some 32 ∧ leading .ipv6Dst site.value 32 = .ok site ∧
      (∃ m, leading .ipv6Dst desk.value 128 = .ok m ∧ m.prefixLength? = some 128) ∧
      (∃ m, leading .ipv6Dst desk.value 0 = .ok m ∧ m.prefixLength? = some 0) ∧
      gapped.prefixLength? ≠ some 16 := by
  have made (length : Nat) (bound : length ≤ 128) :
      ∃ m, leading .ipv6Dst desk.value length = .ok m ∧ m.prefixLength? = some length := by
    obtain ⟨m, built, -, -, found⟩ :=
      prefixLength?_leading.1 .ipv6Dst desk.value length (by decide) bound
    exact ⟨m, built, found⟩
  have found : site.prefixLength? = some 32 := by decide +kernel
  refine ⟨found, (prefixLength?_leading.2 site 32).2 found, made 128 (Nat.le_refl _),
    made 0 (Nat.zero_le _), fun counted => ?_⟩
  -- the gap is among the 16 highest bits
  have bits := ((prefixLength?_leading.2 gapped 16).1.mp counted).2 16
  exact absurd bits (by decide)

/-! ## Prefixes that intersect -/

/-- Prefixes intersect exactly if one of them is within the other. -/
theorem IsLeading.intersects_iff (leftLeading : left.IsLeading)
    (rightLeading : right.IsLeading) :
    left.Intersects right ↔ left.IsSubmatch right ∨ right.IsSubmatch left := by
  constructor
  · exact leftLeading.isSubmatch_or rightLeading
  · rintro (within | around)
    · exact within.intersects
    · exact around.intersects.symm

/-- The addresses of another network. -/
def otherSite : Match :=
  ⟨.ipv6Dst, 0x20010DB9 <<< 96, BitVec.allOnes 128 <<< 96, by decide, by decide⟩

/-- An address intersects its own network, and not another one. -/
theorem desk_intersects :
    desk.IsLeading ∧ site.IsLeading ∧ otherSite.IsLeading ∧ desk.Intersects site ∧
      ¬ desk.Intersects otherSite := by
  have whole : desk.IsLeading := ⟨128, by decide⟩
  have network : site.IsLeading := ⟨32, by decide⟩
  have other : otherSite.IsLeading := ⟨32, by decide⟩
  refine ⟨whole, network, other, ?_, ?_⟩
  · rw [whole.intersects_iff network]
    exact Or.inl (by decide)
  · rw [whole.intersects_iff other]
    decide

end Match

end PacketClassifier
