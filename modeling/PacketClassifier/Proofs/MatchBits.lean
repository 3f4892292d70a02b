import PacketClassifier.Packet
import PacketClassifier.Trie.Insert

/-!
# Matches bit by bit

The comparisons of matches are computed on whole words.  Here they are read bit
by bit: a match fixes the bits of its mask, each to the bit of its value.  From
that reading follow the laws of the comparisons, and that two matches on one
field both fall under what they share.  The last section tells what each fit of a
match to a stem means.
-/

namespace PacketClassifier

/-! ## Masks of leading bits -/

theorem Field.bits_le (field : Field) : field.bits ≤ 128 := by
  cases field <;> decide

theorem Word.getLsbD_lowBits {count : Nat} (bound : count ≤ 128) (i : Nat) :
    (Word.lowBits count).getLsbD i = decide (i < count) := by
  have inWord : i < count → i < 128 := fun below => by omega
  rw [Word.lowBits, BitVec.getLsbD_setWidth, BitVec.getLsbD_allOnes]
  simpa using inWord

@[simp]
theorem Field.getLsbD_fullMask (field : Field) (i : Nat) :
    field.fullMask.getLsbD i = decide (i < field.bits) :=
  Word.getLsbD_lowBits field.bits_le i

/-- The leading bits of a field are the highest ones that it has. -/
@[simp]
theorem Field.getLsbD_leadingMask (field : Field) (length i : Nat) :
    (field.leadingMask length).getLsbD i =
      decide (i < field.bits ∧ field.bits ≤ length + i) := by
  have bound := field.bits_le
  by_cases inside : i < field.bits
  · have inWord : i < 128 := by omega
    rw [Field.leadingMask, BitVec.getLsbD_and, BitVec.getLsbD_not,
      BitVec.getLsbD_ushiftRight, getLsbD_fullMask, getLsbD_fullMask]
    by_cases leading : field.bits ≤ length + i
    · simp [inside, inWord, leading, Nat.not_lt.mpr leading]
    · simp [inside, inWord, leading, Nat.not_le.mp leading]
  · simp [Field.leadingMask, inside]

/-- A field holds the words without a bit beyond its width. -/
theorem Field.holds_iff_bits {field : Field} {word : Word} :
    field.Holds word ↔ ∀ i, word.getLsbD i = true → i < field.bits := by
  constructor
  · intro held i set
    rw [← show word &&& field.fullMask = word from held, BitVec.getLsbD_and,
      getLsbD_fullMask] at set
    simp only [Bool.and_eq_true, decide_eq_true_eq] at set
    exact set.2
  · intro within
    apply BitVec.eq_of_getLsbD_eq
    intro i _
    rw [BitVec.getLsbD_and, getLsbD_fullMask]
    cases set : word.getLsbD i with
    | false => rfl
    | true => simp [within i set]

theorem Word.getLsbD_of_leadingRun {word : Word} {width i : Nat}
    (below : i < width) (inRun : width ≤ word.leadingRun width + i) :
    word.getLsbD i = true := by
  induction width with
  | zero => omega
  | succ width ih =>
      by_cases set : word.getLsbD width = true
      · by_cases last : i = width
        · rw [last]
          exact set
        · simp only [Word.leadingRun, set, if_true] at inRun
          exact ih (by omega) (by omega)
      · simp only [Word.leadingRun, set] at inRun
        simp at inRun
        omega

namespace Match

/-! ## Comparisons bit by bit -/

/-- A match fixes no bit outside its mask. -/
theorem mask_of_value (m : Match) {i : Nat}
    (set : m.value.getLsbD i = true) : m.mask.getLsbD i = true := by
  have masked := congrArg (BitVec.getLsbD · i) m.value_masked
  simp only [BitVec.getLsbD_and] at masked
  rw [set] at masked
  simpa using masked

theorem value_of_mask (m : Match) {i : Nat} (free : m.mask.getLsbD i = false) :
    m.value.getLsbD i = false := by
  apply Bool.eq_false_iff.mpr
  intro set
  rw [m.mask_of_value set] at free
  cases free

theorem holds_value (m : Match) : m.field.Holds m.value :=
  Field.holds_iff_bits.mpr fun i set =>
    Field.holds_iff_bits.mp m.mask_holds i (m.mask_of_value set)

/-- A value is accepted if it has the bits that the match fixes. -/
theorem accepts_iff_bits {m : Match} {value : Word} :
    m.Accepts value ↔
      ∀ i, m.mask.getLsbD i = true → value.getLsbD i = m.value.getLsbD i := by
  constructor
  · intro accepted i fixed
    rw [← show value &&& m.mask = m.value from accepted, BitVec.getLsbD_and, fixed,
      Bool.and_true]
  · intro bits
    apply BitVec.eq_of_getLsbD_eq
    intro i _
    rw [BitVec.getLsbD_and]
    cases fixed : m.mask.getLsbD i with
    | false => simp [m.value_of_mask fixed]
    | true => simp [bits i fixed]

/-- The wider match fixes some of the bits of the narrower one, to the same values. -/
theorem isSubmatch_iff_bits {narrow wide : Match} :
    narrow.IsSubmatch wide ↔
      narrow.field = wide.field ∧
        ∀ i, wide.mask.getLsbD i = true →
          narrow.mask.getLsbD i = true ∧
            narrow.value.getLsbD i = wide.value.getLsbD i := by
  constructor
  · rintro ⟨field, mask, value⟩
    refine ⟨field, fun i fixed => ⟨?_, accepts_iff_bits.mp value i fixed⟩⟩
    have maskBit := congrArg (BitVec.getLsbD · i) mask
    simpa only [BitVec.getLsbD_and, fixed, Bool.and_true] using maskBit
  · rintro ⟨field, bits⟩
    refine ⟨field, ?_, accepts_iff_bits.mpr (fun i fixed => (bits i fixed).2)⟩
    apply BitVec.eq_of_getLsbD_eq
    intro i _
    rw [BitVec.getLsbD_and]
    cases fixed : wide.mask.getLsbD i with
    | false => simp
    | true => simp [(bits i fixed).1]

/-- Intersecting matches agree wherever both fix a bit. -/
theorem intersects_iff_bits {left right : Match} :
    left.Intersects right ↔
      left.field = right.field ∧
        ∀ i, left.mask.getLsbD i = true → right.mask.getLsbD i = true →
          left.value.getLsbD i = right.value.getLsbD i := by
  constructor
  · rintro ⟨field, apart⟩
    refine ⟨field, fun i leftFixed rightFixed => ?_⟩
    have bit := congrArg (BitVec.getLsbD · i) apart
    simpa [leftFixed, rightFixed] using bit
  · rintro ⟨field, bits⟩
    refine ⟨field, ?_⟩
    apply BitVec.eq_of_getLsbD_eq
    intro i _
    cases leftFixed : left.mask.getLsbD i with
    | false => simp [leftFixed]
    | true =>
        cases rightFixed : right.mask.getLsbD i with
        | false => simp [rightFixed]
        | true => simp [leftFixed, rightFixed, bits i leftFixed rightFixed]

/-! ## Laws of the comparisons -/

theorem IsSubmatch.refl (m : Match) : m.IsSubmatch m :=
  ⟨rfl, BitVec.and_self, m.value_masked⟩

theorem IsSubmatch.trans {narrow middle wide : Match}
    (lower : narrow.IsSubmatch middle) (upper : middle.IsSubmatch wide) :
    narrow.IsSubmatch wide := by
  rw [isSubmatch_iff_bits] at *
  refine ⟨lower.1.trans upper.1, fun i fixed => ?_⟩
  have above := upper.2 i fixed
  have below := lower.2 i above.1
  exact ⟨below.1, below.2.trans above.2⟩

/-- A packet that satisfies a match satisfies every wider one. -/
theorem IsSubmatch.admits {narrow wide : Match} {packet : Packet}
    (tighter : narrow.IsSubmatch wide) (satisfied : narrow.Admits packet) :
    wide.Admits packet := by
  rcases satisfied with ⟨value, carried, accepted⟩
  refine ⟨value, tighter.1 ▸ carried, ?_⟩
  calc value &&& wide.mask
      = value &&& narrow.mask &&& wide.mask := by
        rw [BitVec.and_assoc, tighter.2.1]
    _ = wide.value := by
        rw [show value &&& narrow.mask = narrow.value from accepted]
        exact tighter.2.2

theorem IsSubmatch.intersects {narrow wide : Match}
    (tighter : narrow.IsSubmatch wide) : narrow.Intersects wide := by
  rw [isSubmatch_iff_bits] at tighter
  exact intersects_iff_bits.mpr
    ⟨tighter.1, fun i _ wideFixed => (tighter.2 i wideFixed).2⟩

theorem Intersects.symm {left right : Match}
    (common : left.Intersects right) : right.Intersects left := by
  rw [intersects_iff_bits] at *
  exact ⟨common.1.symm, fun i rightFixed leftFixed =>
    (common.2 i leftFixed rightFixed).symm⟩

/-- What intersects a match intersects every wider one. -/
theorem Intersects.widen {narrow wide other : Match}
    (common : narrow.Intersects other) (tighter : narrow.IsSubmatch wide) :
    wide.Intersects other := by
  rw [intersects_iff_bits] at *
  rw [isSubmatch_iff_bits] at tighter
  refine ⟨tighter.1.symm.trans common.1, fun i wideFixed otherFixed => ?_⟩
  have fixed := tighter.2 i wideFixed
  exact fixed.2.symm.trans (common.2 i fixed.1 otherFixed)

/-! ## What two matches share -/

theorem agreement_bit {left right : Match} {i : Nat}
    (agreed : (left.agreement right).getLsbD i = true) :
    left.mask.getLsbD i = true ∧ right.mask.getLsbD i = true ∧
      left.value.getLsbD i = right.value.getLsbD i := by
  simp only [agreement, BitVec.getLsbD_and, BitVec.getLsbD_not,
    BitVec.getLsbD_xor, Bool.and_eq_true] at agreed
  obtain ⟨⟨leftFixed, rightFixed⟩, -, equal⟩ := agreed
  exact ⟨leftFixed, rightFixed, by simpa using equal⟩

/-- The bits that the shared match fixes are agreed on by both matches. -/
theorem alike?_bit {left right shared : Match}
    (found : left.alike? right = some shared) {i : Nat}
    (fixed : shared.mask.getLsbD i = true) :
    (left.agreement right).getLsbD i = true ∧
      shared.value.getLsbD i = left.value.getLsbD i := by
  unfold alike? at found
  split at found
  · cases found
    have leading : i < left.field.bits ∧ left.field.bits ≤
        (left.agreement right).leadingRun left.field.bits + i := by
      simpa [truncate] using fixed
    refine ⟨Word.getLsbD_of_leadingRun leading.1 leading.2, ?_⟩
    simp [truncate, leading]
  · cases found

theorem alike?_field {left right shared : Match}
    (found : left.alike? right = some shared) :
    left.field = right.field ∧ shared.field = left.field := by
  unfold alike? at found
  split at found
  · rename_i same
    cases found
    exact ⟨same, rfl⟩
  · cases found

theorem alike?_left {left right shared : Match}
    (found : left.alike? right = some shared) : left.IsSubmatch shared := by
  rw [isSubmatch_iff_bits]
  refine ⟨(alike?_field found).2.symm, fun i fixed => ?_⟩
  have bit := alike?_bit found fixed
  exact ⟨(agreement_bit bit.1).1, bit.2.symm⟩

theorem alike?_right {left right shared : Match}
    (found : left.alike? right = some shared) : right.IsSubmatch shared := by
  rw [isSubmatch_iff_bits]
  have fields := alike?_field found
  refine ⟨fields.1.symm.trans fields.2.symm, fun i fixed => ?_⟩
  have bit := alike?_bit found fixed
  have agreed := agreement_bit bit.1
  exact ⟨agreed.2.1, agreed.2.2.symm.trans bit.2.symm⟩

/-! ## Fits -/

theorem fit_equal {stem candidate : Match}
    (fits : stem.fit candidate = .equal) : stem = candidate := by
  grind [fit]

/-- A match that fits inside a stem is narrower. -/
theorem fit_inside {stem candidate : Match}
    (fits : stem.fit candidate = .inside) : candidate.IsSubmatch stem := by
  grind [fit, alike?_right]

theorem fit_around {stem candidate : Match}
    (fits : stem.fit candidate = .around) : stem.IsSubmatch candidate := by
  grind [fit, alike?_left]

/-- A stem and a match that fork are both narrower than what they share. -/
theorem fit_fork {stem candidate shared : Match}
    (fits : stem.fit candidate = .fork shared) :
    stem.IsSubmatch shared ∧ candidate.IsSubmatch shared := by
  grind [fit, alike?_left, alike?_right]

/-- Matches on different fields share no bit. -/
theorem fit_of_field_ne {stem candidate : Match}
    (different : stem.field ≠ candidate.field) :
    stem.fit candidate = .apart := by
  have unequal : stem ≠ candidate := fun same => different (same ▸ rfl)
  simp [fit, unequal, alike?, different]

end Match

end PacketClassifier
