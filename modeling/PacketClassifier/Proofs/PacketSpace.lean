import Mathlib.Data.Set.Basic
import PacketClassifier.Proofs.Implication
import PacketClassifier.Proofs.LeadingBits

/-!
# The packets of a conjunction

The space of a conjunction holds the packets that satisfy it and fit the widths of their
fields.  Conjunctions compare as their spaces do, although they are compared field by field.
A packet of a conjunction has nothing to choose but the bits that are free: where those are
all clear in one packet and all set in another, and a second conjunction is satisfied by both
packets, it fixes no bit that the first one leaves free.  Where two conjunctions intersect, the
bits that either fixes make up a packet that satisfies both.
-/

namespace PacketClassifier

/-! ## Packets that fit -/

theorem Field.Holds.or {field : Field} {value other : Word} (held : field.Holds value)
    (otherHeld : field.Holds other) : field.Holds (value ||| other) := by
  rw [holds_iff_bits] at *
  intro i set
  rw [BitVec.getLsbD_or, Bool.or_eq_true] at set
  exact set.elim (held i) (otherHeld i)

namespace Packet

variable {first second : Packet}

/-- No value has a bit beyond the width of its field. -/
def Fits (packet : Packet) : Prop :=
  ∀ field, ∀ value ∈ packet.field? field, field.Holds value

/-- A packet with the fields of two; a field of both has the bits of both. -/
def overlay (first second : Packet) : Packet where
  field? field := (first.field? field).merge (· ||| ·) (second.field? field)

theorem overlay_comm (first second : Packet) :
    first.overlay second = second.overlay first := by
  unfold overlay
  congr 1
  funext field
  cases first.field? field <;> cases second.field? field <;>
    simp [Option.merge, BitVec.or_comm]

theorem Fits.overlay (fits : first.Fits) (otherFits : second.Fits) :
    (first.overlay second).Fits := by
  intro field value carried
  cases own : first.field? field with
  | none => exact otherFits field value (by simpa [Packet.overlay, own] using carried)
  | some found =>
      cases other : second.field? field with
      | none => exact fits field value (by simpa [Packet.overlay, own, other] using carried)
      | some otherFound =>
          obtain rfl : found ||| otherFound = value := by
            simpa [Packet.overlay, own, other] using carried
          exact (fits field found own).or (otherFits field otherFound other)

end Packet

namespace Match

variable {m left right narrow wide : Match} {packet : Packet}

/-! ## Values of a match -/

/-- The value with the bits that a match fixes, and those of `bits` where it leaves them free. -/
def fill (m : Match) (bits : Word) : Word :=
  m.value ||| (bits &&& m.field.fullMask &&& ~~~m.mask)

theorem getLsbD_fill (m : Match) (bits : Word) (i : Nat) :
    (m.fill bits).getLsbD i =
      if m.mask.getLsbD i then m.value.getLsbD i
      else bits.getLsbD i && decide (i < m.field.bits) := by
  have inWord : i < m.field.bits → i < 128 :=
    fun inField => Nat.lt_of_lt_of_le inField m.field.bits_le
  simp only [fill, BitVec.getLsbD_or, BitVec.getLsbD_and, BitVec.getLsbD_not,
    Field.getLsbD_fullMask]
  cases fixed : m.mask.getLsbD i with
  | false => simpa [m.value_of_mask fixed] using fun _ inField => inWord inField
  | true => simp

theorem accepts_fill (m : Match) (bits : Word) : m.Accepts (m.fill bits) := by
  rw [accepts_iff_bits]
  intro i fixed
  rw [getLsbD_fill, if_pos fixed]

theorem holds_fill (m : Match) (bits : Word) : m.field.Holds (m.fill bits) := by
  rw [Field.holds_iff_bits]
  intro i set
  rw [getLsbD_fill] at set
  split at set
  · rename_i fixed
    exact Field.holds_iff_bits.mp m.mask_holds i fixed
  · simp only [Bool.and_eq_true, decide_eq_true_eq] at set
    exact set.2

/-- A match is narrower if its values with the free bits all clear and all set are accepted. -/
theorem isSubmatch_of_accepts (same : narrow.field = wide.field)
    (low : wide.Accepts (narrow.fill 0))
    (high : wide.Accepts (narrow.fill (BitVec.allOnes 128))) : narrow.IsSubmatch wide := by
  rw [accepts_iff_bits] at low high
  refine isSubmatch_iff_bits.mpr ⟨same, fun i wideFixed => ?_⟩
  have clear := low i wideFixed
  have set := high i wideFixed
  have inField : i < narrow.field.bits :=
    same ▸ Field.holds_iff_bits.mp wide.mask_holds i wideFixed
  have inWord : i < 128 := Nat.lt_of_lt_of_le inField narrow.field.bits_le
  rw [getLsbD_fill] at clear set
  split at clear
  · rename_i narrowFixed
    exact ⟨narrowFixed, clear⟩
  · -- the wider match would fix the bit to both values
    rename_i free
    rw [if_neg free, ← clear, BitVec.getLsbD_allOnes] at set
    simp [inField, inWord] at set

/-- Matches on a field intersect if a packet satisfies both. -/
theorem intersects_of_admits (field : left.field = right.field) (first : left.Admits packet)
    (second : right.Admits packet) : left.Intersects right := by
  obtain ⟨value, carried, accepted⟩ := first
  obtain ⟨other, carriedToo, acceptedToo⟩ := second
  obtain rfl : value = other := by
    rw [field] at carried
    exact Option.mem_unique carried carriedToo
  rw [accepts_iff_bits] at accepted acceptedToo
  refine intersects_iff_bits.mpr ⟨field, fun i leftFixed rightFixed => ?_⟩
  exact (accepted i leftFixed).symm.trans (acceptedToo i rightFixed)

/-- A match accepts the bits that it fixes together with those of a match that it intersects. -/
theorem Intersects.accepts_or (common : left.Intersects right) :
    left.Accepts (left.fill 0 ||| right.fill 0) := by
  rw [intersects_iff_bits] at common
  rw [accepts_iff_bits]
  intro i fixed
  rw [BitVec.getLsbD_or, getLsbD_fill, getLsbD_fill, if_pos fixed]
  split
  · rename_i rightFixed
    rw [← common.2 i fixed rightFixed, Bool.or_self]
  · simp

end Match

namespace MatchSet

variable {left right narrow wide : MatchSet} {packet : Packet}

/-! ## Order of conjunctions -/

theorem IsSubmatch.admits (tighter : narrow.IsSubmatch wide) (satisfied : narrow.Admits packet) :
    wide.Admits packet := by
  intro m member
  exact (implies_iff_get?.mpr (tighter m member)).admits satisfied

/-- Of two conjunctions that are narrower than each other, each has the matches of the other. -/
theorem IsSubmatch.subset (lower : narrow.IsSubmatch wide) (upper : wide.IsSubmatch narrow) :
    wide.toList ⊆ narrow.toList := by
  intro outer member
  obtain ⟨inner, found, below⟩ := lower outer member
  obtain ⟨innerMember, field⟩ := mem_of_get? found
  obtain ⟨back, foundBack, above⟩ := upper inner innerMember
  obtain ⟨backMember, backField⟩ := mem_of_get? foundBack
  obtain rfl : back = outer := eq_of_field_eq backMember member (backField.trans field)
  rwa [← below.antisymm above]

/-- Conjunctions with the same matches are equal. -/
theorem ext_mem (same : ∀ m, m ∈ left.toList ↔ m ∈ right.toList) : left = right := by
  have distinct (set : MatchSet) : set.toList.Nodup := by
    refine List.Pairwise.imp ?_ set.ordered
    rintro m _ before rfl
    exact Nat.lt_irrefl _ before
  have listed : left.toList = right.toList :=
    List.Perm.eq_of_pairwise (fun _ _ _ _ before after => absurd before (Nat.lt_asymm after))
      left.ordered right.ordered
      ((List.perm_ext_iff_of_nodup (distinct left) (distinct right)).mpr same)
  cases left
  cases right
  cases listed
  rfl

theorem IsSubmatch.antisymm (lower : narrow.IsSubmatch wide) (upper : wide.IsSubmatch narrow) :
    narrow = wide :=
  ext_mem fun _ => ⟨fun member => upper.subset lower member,
    fun member => lower.subset upper member⟩

/-! ## Packets of a conjunction -/

/-- The packet with the fields of a conjunction, whose free bits are those of `bits`. -/
def filled (set : MatchSet) (bits : Word) : Packet where
  field? field := (set.get? field).map (Match.fill · bits)

theorem admits_filled (set : MatchSet) (bits : Word) : set.Admits (set.filled bits) := by
  intro m member
  refine ⟨m.fill bits, ?_, m.accepts_fill bits⟩
  simp [filled, get?_of_mem member]

theorem fits_filled (set : MatchSet) (bits : Word) : (set.filled bits).Fits := by
  intro field value carried
  obtain ⟨m, found, rfl⟩ := Option.map_eq_some_iff.mp carried
  exact (mem_of_get? found).2 ▸ m.holds_fill bits

/-- The packets that satisfy a conjunction, among those that fit. -/
def space (set : MatchSet) : Set Packet :=
  {packet | packet.Fits ∧ set.Admits packet}

theorem filled_mem_space (set : MatchSet) (bits : Word) : set.filled bits ∈ set.space :=
  ⟨set.fits_filled bits, set.admits_filled bits⟩

/-- Two packets of a conjunction show that it is narrower than another one. -/
theorem isSubmatch_of_admits (low : wide.Admits (narrow.filled 0))
    (high : wide.Admits (narrow.filled (BitVec.allOnes 128))) : narrow.IsSubmatch wide := by
  intro outer member
  obtain ⟨value, carried, accepted⟩ := low outer member
  obtain ⟨other, otherCarried, otherAccepted⟩ := high outer member
  obtain ⟨inner, found, rfl⟩ := Option.map_eq_some_iff.mp carried
  obtain ⟨again, foundAgain, rfl⟩ := Option.map_eq_some_iff.mp otherCarried
  obtain rfl : inner = again := Option.mem_unique found foundAgain
  exact ⟨inner, found, Match.isSubmatch_of_accepts (mem_of_get? found).2 accepted otherAccepted⟩

theorem isSubmatch_iff_subset : narrow.IsSubmatch wide ↔ narrow.space ⊆ wide.space := by
  constructor
  · rintro tighter packet ⟨fits, satisfied⟩
    exact ⟨fits, tighter.admits satisfied⟩
  · intro within
    exact isSubmatch_of_admits (within (narrow.filled_mem_space 0)).2
      (within (narrow.filled_mem_space (BitVec.allOnes 128))).2

theorem IsSubmatch.trans {middle : MatchSet} (lower : narrow.IsSubmatch middle)
    (upper : middle.IsSubmatch wide) : narrow.IsSubmatch wide :=
  isSubmatch_iff_subset.mpr
    ((isSubmatch_iff_subset.mp lower).trans (isSubmatch_iff_subset.mp upper))

/--
A conjunction is narrower than another one, or equal to it, exactly if its packets are among
those of the other, or the same.
-/
theorem space_determines (narrow wide : MatchSet) :
    (narrow.IsSubmatch wide ↔ narrow.space ⊆ wide.space) ∧
      (narrow = wide ↔ narrow.space = wide.space) := by
  refine ⟨isSubmatch_iff_subset, fun same => same ▸ rfl, fun same => ?_⟩
  exact (isSubmatch_iff_subset.mpr same.subset).antisymm (isSubmatch_iff_subset.mpr same.superset)

/-! ## Conjunctions with a packet in common -/

theorem intersects_of_admits (first : left.Admits packet) (second : right.Admits packet) :
    left.Intersects right := by
  intro m member other found
  obtain ⟨otherMember, field⟩ := mem_of_get? found
  exact Match.intersects_of_admits field.symm (first m member) (second other otherMember)

theorem Intersects.refl (set : MatchSet) : set.Intersects set :=
  intersects_of_admits (set.admits_filled 0) (set.admits_filled 0)

theorem Intersects.symm (common : left.Intersects right) : right.Intersects left := by
  intro m member other found
  obtain ⟨otherMember, field⟩ := mem_of_get? found
  exact (common other otherMember m (field ▸ get?_of_mem member)).symm

/-- The bits that two intersecting conjunctions fix make up a packet that satisfies either. -/
theorem Intersects.admits_overlay (common : left.Intersects right) :
    left.Admits ((left.filled 0).overlay (right.filled 0)) := by
  intro m member
  have own := get?_of_mem member
  cases found : right.get? m.field with
  | none => exact ⟨m.fill 0, by simp [Packet.overlay, filled, own, found], m.accepts_fill 0⟩
  | some other =>
      exact ⟨m.fill 0 ||| other.fill 0, by simp [Packet.overlay, filled, own, found],
        (common m member other found).accepts_or⟩

/--
Two conjunctions intersect, in whichever order they are compared, exactly if they have a
packet in common.
-/
theorem intersects_iff_inter_nonempty (left right : MatchSet) :
    (left.Intersects right ↔ (left.space ∩ right.space).Nonempty) ∧
      (left.Intersects right ↔ right.Intersects left) := by
  refine ⟨⟨fun common => ?_, ?_⟩, Intersects.symm, Intersects.symm⟩
  · have fits := (left.fits_filled 0).overlay (right.fits_filled 0)
    refine ⟨_, ⟨fits, common.admits_overlay⟩, fits, ?_⟩
    rw [Packet.overlay_comm]
    exact common.symm.admits_overlay
  · rintro ⟨packet, ⟨-, first⟩, -, second⟩
    exact intersects_of_admits first second

end MatchSet

end PacketClassifier
