import PacketClassifier.MatchSet.Text
import PacketClassifier.Proofs.LeadingBits
import PacketClassifier.Proofs.Text.Addresses

/-!
# Conjunctions that are read back

What is in front of the equals sign of a match is the name of its field.  Behind it an address
with a prefix length is told from a number by the mark of hexadecimal numbers, and what is
behind the slash, if there is one, determines the mask.
-/

namespace PacketClassifier

open Text

/-! ## Fields -/

theorem Field.ofName?_name (field : Field) : Field.ofName? field.name = some field := by
  cases field <;> decide

theorem Field.name_injective : Function.Injective Field.name := by
  intro field other same
  have found := Field.ofName?_name field
  rw [same, Field.ofName?_name other] at found
  exact (Option.some.inj found).symm

/-- The characters of names and of what is written for matches and actions. -/
def Text.ruleCharacters : List Char :=
  ['/', '=', '_', 'g', 'h', 'i', 'j', 'k', 'l', 'm', 'n', 'o', 'p', 'q', 'r', 's', 't', 'u',
   'v', 'w', 'x', 'y', 'z'] ++ addressCharacters

theorem Text.addressCharacters_subset : addressCharacters ⊆ ruleCharacters :=
  List.subset_append_right _ _

theorem Text.hexCharacters_subset : 'x' :: hexDigits ⊆ ruleCharacters := by
  decide

theorem Field.name_subset (field : Field) : field.name.toList ⊆ ruleCharacters := by
  cases field <;> decide

theorem Field.equals_not_mem_name (field : Field) : '=' ∉ field.name.toList := by
  cases field <;> decide

namespace Match

variable {m left right : Match} {field : Field} {value other : Word} {text : String}

/-! ## Constraints -/

theorem toNat_lt_of_holds (holds : field.Holds value) : value.toNat < 2 ^ field.bits := by
  have full : field.fullMask.toNat < 2 ^ field.bits := by
    have ones : (BitVec.allOnes field.bits).toNat < 2 ^ field.bits := BitVec.isLt _
    rw [Field.fullMask, Word.lowBits, BitVec.toNat_setWidth]
    exact Nat.lt_of_le_of_lt (Nat.mod_le _ _) ones
  rw [← show value &&& field.fullMask = value from holds, BitVec.toNat_and]
  exact Nat.lt_of_le_of_lt Nat.and_le_right full

theorem addressText?_subset (shown : addressText? field value = some text) :
    text.toList ⊆ addressCharacters := by
  unfold addressText? at shown
  split at shown
  · exact Option.some.inj shown ▸ ipv4_subset value
  · split at shown
    · exact Option.some.inj shown ▸ ipv6_subset value
    · cases shown

/-- The addresses that a field holds are told apart by how they are written. -/
theorem eq_of_addressText?_eq (holds : field.Holds value) (holds' : field.Holds other)
    (shown : addressText? field value = some text)
    (shown' : addressText? field other = some text) : value = other := by
  unfold addressText? at shown shown'
  split at shown
  · rename_i short
    rw [if_pos short] at shown'
    have bits : field.bits = 32 := by
      rcases short with rfl | rfl <;> rfl
    have low := low_eq_of_ipv4_eq ((Option.some.inj shown).trans (Option.some.inj shown').symm)
    have below := toNat_lt_of_holds holds
    have below' := toNat_lt_of_holds holds'
    rw [bits] at below below'
    rw [Nat.mod_eq_of_lt below, Nat.mod_eq_of_lt below'] at low
    exact BitVec.eq_of_toNat_eq low
  · rename_i long
    rw [if_neg long] at shown'
    split at shown
    · rename_i wide
      rw [if_pos wide] at shown'
      exact ipv6_injective ((Option.some.inj shown).trans (Option.some.inj shown').symm)
    · cases shown

/-- What follows the number of a match that shows no address. -/
def maskText (m : Match) : String :=
  if m.IsExact then "" else "/" ++ hex m.mask.toNat

theorem startsAt_maskText (m : Match) : StartsAt '/' m.maskText := by
  unfold maskText
  split
  · exact startsAt_empty
  · exact startsAt_append (by rfl) _

theorem mask_eq_of_maskText_eq (fields : left.field = right.field)
    (same : left.maskText = right.maskText) : left.mask = right.mask := by
  unfold maskText at same
  split at same <;> split at same
  · rename_i exact exact'
    exact exact.trans (fields ▸ exact'.symm)
  · simp at same
  · simp at same
  · exact BitVec.eq_of_toNat_eq (hex_inj.mp ((String.append_right_inj "/").mp same))

/-- A constraint shows an address and a prefix length, or a number and perhaps a mask. -/
theorem constraintText_cases (m : Match) :
    (∃ address length, addressText? m.field m.value = some address ∧
        m.prefixLength? = some length ∧
        m.constraintText = address ++ ("/" ++ decimal length)) ∨
      m.constraintText = hex m.value.toNat ++ m.maskText := by
  unfold constraintText
  split
  · rename_i address length shown counted
    exact Or.inl ⟨address, length, shown, counted, String.append_assoc⟩
  · refine Or.inr ?_
    unfold maskText
    split
    · exact String.append_empty.symm
    · exact String.append_assoc

theorem slash_not_mem_address (shown : addressText? field value = some text) :
    '/' ∉ text.toList :=
  List.notMem_of_subset (addressText?_subset shown) (by decide)

theorem slash_not_mem_hex (number : Nat) : '/' ∉ (hex number).toList :=
  List.notMem_of_subset (hex_subset number) (by decide)

/-- An address is told from a number, whatever follows behind a slash. -/
theorem address_append_ne (shown : addressText? field value = some text) {number : Nat}
    {back back' : String} (starts : StartsAt '/' back) (starts' : StartsAt '/' back') :
    text ++ back ≠ hex number ++ back' := by
  intro same
  have fronts := (eq_of_append_eq same (slash_not_mem_address shown) (slash_not_mem_hex number)
    starts starts').1
  exact absurd (addressText?_subset shown (fronts ▸ x_mem_hex number)) (by decide)

/-- What a match constrains its field to is determined by how that is written. -/
theorem constraintText_injective (fields : left.field = right.field)
    (same : left.constraintText = right.constraintText) : left = right := by
  have slashed (text : String) : StartsAt '/' ("/" ++ text) := startsAt_append (by rfl) text
  rcases left.constraintText_cases with ⟨address, length, shown, counted, written⟩ | written <;>
    rcases right.constraintText_cases with
      ⟨address', length', shown', counted', written'⟩ | written' <;>
    rw [written, written'] at same
  -- an address and a number are never alike, which leaves two addresses or two numbers
  · obtain ⟨rfl, lengths⟩ := eq_of_append_append_eq (by rfl) same
      (slash_not_mem_address shown) (slash_not_mem_address shown')
    obtain rfl := decimal_inj.mp lengths
    have masks : left.mask = right.mask := by
      rw [mask_of_prefixLength? counted, mask_of_prefixLength? counted', fields]
    have values : left.value = right.value :=
      eq_of_addressText?_eq left.holds_value (fields ▸ right.holds_value) shown
        (fields ▸ shown')
    exact Match.ext fields values masks
  · exact absurd same (address_append_ne shown (slashed _) right.startsAt_maskText)
  · exact absurd same.symm (address_append_ne shown' (slashed _) left.startsAt_maskText)
  · obtain ⟨numbers, masks⟩ := eq_of_append_eq same (slash_not_mem_hex _) (slash_not_mem_hex _)
      left.startsAt_maskText right.startsAt_maskText
    have values := BitVec.eq_of_toNat_eq (hex_inj.mp numbers)
    exact Match.ext fields values (mask_eq_of_maskText_eq fields masks)

/-! ## Matches -/

/-- A match is determined by how it is written. -/
theorem text_injective : Function.Injective Match.text := by
  intro left right same
  simp only [Match.text, String.append_assoc] at same
  obtain ⟨names, constraints⟩ := eq_of_append_append_eq (by rfl) same
    left.field.equals_not_mem_name right.field.equals_not_mem_name
  exact constraintText_injective (Field.name_injective names) constraints

theorem text_subset (m : Match) : m.text.toList ⊆ ruleCharacters := by
  have number (value : Nat) : (hex value).toList ⊆ ruleCharacters :=
    List.Subset.trans (hex_subset value) hexCharacters_subset
  have constraint : m.constraintText.toList ⊆ ruleCharacters := by
    rcases m.constraintText_cases with ⟨address, length, shown, -, written⟩ | written
    · have digits : (decimal length).toList ⊆ ruleCharacters :=
        List.Subset.trans (decimal_subset length) (by decide)
      simp only [written, String.toList_append, List.append_subset]
      exact ⟨List.Subset.trans (addressText?_subset shown) addressCharacters_subset,
        by decide, digits⟩
    · rw [written, String.toList_append, List.append_subset, maskText]
      refine ⟨number _, ?_⟩
      split
      · exact List.nil_subset _
      · simp only [String.toList_append, List.append_subset]
        exact ⟨by decide, number _⟩
  simp only [Match.text, String.toList_append, List.append_subset]
  exact ⟨⟨m.field.name_subset, by decide⟩, constraint⟩

end Match

/-! ## Conjunctions -/

namespace MatchSet

theorem text_eq_listed (set : MatchSet) :
    set.text = listed "," "*" Match.text set.toList := by
  unfold MatchSet.text
  cases set.toList <;> rfl

theorem ext_toList {left right : MatchSet} (same : left.toList = right.toList) :
    left = right := by
  cases left
  cases right
  cases same
  rfl

/-- A conjunction is determined by how it is written. -/
theorem text_injective : Function.Injective MatchSet.text := by
  intro left right same
  rw [text_eq_listed, text_eq_listed] at same
  have clear (m : Match) : ',' ∉ m.text.toList :=
    List.notMem_of_subset m.text_subset (by decide)
  have proper (m : Match) : m.text ≠ "*" := by
    intro star
    have inText := m.text_subset
    rw [star] at inText
    exact absurd inText (by decide)
  exact ext_toList (listed_injective (by rfl) Match.text_injective clear (by decide) proper same)

theorem text_subset (set : MatchSet) :
    set.text.toList ⊆ ',' :: '*' :: ruleCharacters := by
  rw [text_eq_listed]
  exact listed_subset (by decide) (by decide)
    (fun m => List.subset_cons_of_subset _ (List.subset_cons_of_subset _ m.text_subset)) _

end MatchSet

end PacketClassifier
