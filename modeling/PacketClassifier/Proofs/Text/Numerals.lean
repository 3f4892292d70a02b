import Mathlib.Data.List.Basic
import PacketClassifier.Text.Numeral

/-!
# Numbers that are read back

The digits of a number have the number for their value, in every base up to sixteen and with
any zeros in front.  So a number is found again in its decimal and in its hexadecimal form.
-/

namespace PacketClassifier.Text

variable {base left right : Nat}

/-- The digits of every base up to sixteen. -/
def hexDigits : List Char :=
  ['0', '1', '2', '3', '4', '5', '6', '7', '8', '9', 'a', 'b', 'c', 'd', 'e', 'f']

def digitValue (digit : Char) : Nat :=
  hexDigits.idxOf digit

/-- The number that digits stand for. -/
def valueOf (base : Nat) (digits : List Char) : Nat :=
  digits.foldl (fun value digit => base * value + digitValue digit) 0

theorem digitChar_mem_hexDigits {digit : Nat} (below : digit < 16) :
    digit.digitChar ∈ hexDigits := by
  decide +revert

theorem digitValue_digitChar {digit : Nat} (below : digit < 16) :
    digitValue digit.digitChar = digit := by
  decide +revert

theorem toDigits_subset (proper : 1 < base) (small : base ≤ 16) (number : Nat) :
    Nat.toDigits base number ⊆ hexDigits := by
  induction number using Nat.strongRecOn with
  | ind number ih =>
      by_cases single : number < base
      · rw [Nat.toDigits_of_lt_base single]
        simpa using digitChar_mem_hexDigits (by omega)
      · have less : number / base < number := Nat.div_lt_self (by omega) proper
        have last : number % base < base := Nat.mod_lt number (by omega)
        rw [Nat.toDigits_of_base_le proper (by omega), List.append_subset]
        exact ⟨ih _ less, by simpa using digitChar_mem_hexDigits (by omega)⟩

theorem valueOf_toDigits (proper : 1 < base) (small : base ≤ 16) (number : Nat) :
    valueOf base (Nat.toDigits base number) = number := by
  induction number using Nat.strongRecOn with
  | ind number ih =>
      by_cases single : number < base
      · rw [Nat.toDigits_of_lt_base single]
        simp [valueOf, digitValue_digitChar (show number < 16 by omega)]
      · have less : number / base < number := Nat.div_lt_self (by omega) proper
        have last : number % base < base := Nat.mod_lt number (by omega)
        have higher := ih _ less
        rw [valueOf] at higher
        rw [Nat.toDigits_of_base_le proper (by omega), valueOf, List.foldl_append, higher,
          List.foldl_cons, List.foldl_nil, digitValue_digitChar (by omega)]
        exact Nat.div_add_mod number base

theorem eq_of_toDigits_eq (proper : 1 < base) (small : base ≤ 16)
    (same : Nat.toDigits base left = Nat.toDigits base right) : left = right := by
  rw [← valueOf_toDigits proper small left, same, valueOf_toDigits proper small]

/-- Zeros in front of digits do not count. -/
theorem valueOf_replicate_append (count : Nat) (digits : List Char) :
    valueOf base (List.replicate count '0' ++ digits) = valueOf base digits := by
  have zeros : valueOf base (List.replicate count '0') = 0 := by
    induction count with
    | zero => rfl
    | succ count ih => simpa [List.replicate_succ, valueOf, digitValue, hexDigits] using ih
  rw [valueOf] at zeros
  rw [valueOf, List.foldl_append, zeros, valueOf]

/-! ## Decimal and hexadecimal numbers -/

@[simp]
theorem decimal_inj : decimal left = decimal right ↔ left = right := by
  refine ⟨fun same => ?_, congrArg decimal⟩
  exact eq_of_toDigits_eq (by decide) (by decide) (String.ofList_inj.mp same)

@[simp]
theorem hexPadded_inj {width : Nat} :
    hexPadded width left = hexPadded width right ↔ left = right := by
  refine ⟨fun same => ?_, congrArg (hexPadded width)⟩
  simp only [hexPadded, String.append_right_inj, String.ofList_inj] at same
  have digits := congrArg (valueOf 16) same
  rwa [valueOf_replicate_append, valueOf_replicate_append,
    valueOf_toDigits (by decide) (by decide), valueOf_toDigits (by decide) (by decide)]
    at digits

theorem hexPadded_zero (number : Nat) : hexPadded 0 number = hex number := by
  simp [hexPadded, hex]

@[simp]
theorem hex_inj : hex left = hex right ↔ left = right := by
  rw [← hexPadded_zero, ← hexPadded_zero, hexPadded_inj]

theorem decimal_subset (number : Nat) : (decimal number).toList ⊆ hexDigits := by
  rw [decimal, String.toList_ofList]
  exact toDigits_subset (by decide) (by decide) number

theorem hexPadded_subset (width number : Nat) :
    (hexPadded width number).toList ⊆ 'x' :: hexDigits := by
  have mark : "0x".toList ⊆ 'x' :: hexDigits := by decide
  have zeros (count : Nat) : List.replicate count '0' ⊆ hexDigits := fun digit member => by
    rw [List.eq_of_mem_replicate member]
    decide
  have digits := toDigits_subset (show 1 < 16 by decide) (by decide) number
  simp only [hexPadded, String.toList_append, String.toList_ofList, List.append_subset]
  exact ⟨mark, List.subset_cons_of_subset _ (zeros _), List.subset_cons_of_subset _ digits⟩

theorem hex_subset (number : Nat) : (hex number).toList ⊆ 'x' :: hexDigits :=
  hexPadded_zero number ▸ hexPadded_subset 0 number

/-- A hexadecimal number bears a mark that no digit is. -/
theorem x_mem_hex (number : Nat) : 'x' ∈ (hex number).toList := by
  simp [hex]

end PacketClassifier.Text
