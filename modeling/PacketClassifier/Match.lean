import PacketClassifier.Field

/-!
# Masked matches

A match constrains the bits of one header field that its mask selects.  The
value of a match has no bit outside its mask, and the mask none beyond the
width of the field, so that two matches are equal exactly when they constrain
the same bits in the same way.  A match whose mask is zero constrains nothing.

Matches on one field are ordered by how much they constrain (`IsSubmatch`) and
have a narrowest common prefix (`alike?`).
-/

namespace PacketClassifier

/-- What is wrong with a match, or with adding it to a conjunction. -/
inductive MatchError where
  | duplicateField (field : Field)
  | valueTooWide (field : Field) (value : Word)
  | maskTooWide (field : Field) (mask : Word)
  | invalidPrefixLength (field : Field) (length : Nat)
deriving DecidableEq

/-- The value of the bits of a field that a mask selects. -/
structure Match where
  field : Field
  value : Word
  mask : Word
  mask_holds : field.Holds mask
  value_masked : value &&& mask = value
deriving DecidableEq

namespace Match

theorem and_mask_masked (value mask : Word) :
    value &&& mask &&& mask = value &&& mask := by
  rw [BitVec.and_assoc, BitVec.and_self]

/-- Matches are told apart by their field, value and mask. -/
@[ext]
theorem ext {left right : Match} (field : left.field = right.field)
    (value : left.value = right.value) (mask : left.mask = right.mask) :
    left = right := by
  cases left
  cases right
  simp_all

/-- A match on the bits of `value` that `mask` selects. -/
def masked (field : Field) (value mask : Word) : Except MatchError Match :=
  if field.Holds value then
    if mask_holds : field.Holds mask then
      .ok ⟨field, value &&& mask, mask, mask_holds, and_mask_masked value mask⟩
    else
      .error (.maskTooWide field mask)
  else
    .error (.valueTooWide field value)

def exact (field : Field) (value : Word) : Except MatchError Match :=
  masked field value field.fullMask

/-- A match on the `length` leading bits of a field. -/
def leading (field : Field) (value : Word) (length : Nat) :
    Except MatchError Match :=
  if field.bits < length then
    .error (.invalidPrefixLength field length)
  else
    masked field value (field.leadingMask length)

/--
A match on a hardware address, given by its six bytes.  Only fields of 48 bits
hold one.
-/
def hardwareAddress (field : Field) (bytes : List (BitVec 8)) :
    Except MatchError Match :=
  let value := bytes.foldl
    (fun (address : Word) byte => (address <<< 8) ||| byte.setWidth 128) 0
  if field.bits = 48 then
    exact field value
  else
    .error (.valueTooWide field value)

/-- A match constrains no bit. -/
def IsWildcard (m : Match) : Prop :=
  m.mask = 0

instance (m : Match) : Decidable m.IsWildcard :=
  inferInstanceAs (Decidable (_ = _))

/-- A match constrains every bit of its field. -/
def IsExact (m : Match) : Prop :=
  m.mask = m.field.fullMask

instance (m : Match) : Decidable m.IsExact :=
  inferInstanceAs (Decidable (_ = _))

/-- The number of bits constrained, if they are the leading bits of the field. -/
def prefixLength? (m : Match) : Option Nat :=
  let length := m.mask.popCount
  if m.field.leadingMask length = m.mask then some length else none

/--
Every bit that `wide` constrains is constrained by `narrow`, to the same value.
-/
def IsSubmatch (narrow wide : Match) : Prop :=
  narrow.field = wide.field ∧ narrow.mask &&& wide.mask = wide.mask ∧
    narrow.value &&& wide.mask = wide.value

instance (narrow wide : Match) : Decidable (narrow.IsSubmatch wide) :=
  inferInstanceAs (Decidable (_ ∧ _ ∧ _))

/-- No bit is constrained by both matches to different values. -/
def Intersects (left right : Match) : Prop :=
  left.field = right.field ∧
    (left.value ^^^ right.value) &&& left.mask &&& right.mask = 0

instance (left right : Match) : Decidable (left.Intersects right) :=
  inferInstanceAs (Decidable (_ ∧ _))

/-- The bits that two matches constrain to the same value. -/
def agreement (left right : Match) : Word :=
  left.mask &&& right.mask &&& ~~~(left.value ^^^ right.value)

/-- The match on the `length` leading bits that agrees with `m` on them. -/
def truncate (m : Match) (length : Nat) : Match where
  field := m.field
  value := m.value &&& m.field.leadingMask length
  mask := m.field.leadingMask length
  mask_holds := m.field.holds_leadingMask length
  value_masked := and_mask_masked m.value (m.field.leadingMask length)

/--
The narrowest match on leading bits that two matches on one field fall under: it
constrains the leading run of bits that both constrain to the same value.
-/
def alike? (left right : Match) : Option Match :=
  if left.field = right.field then
    some (left.truncate ((agreement left right).leadingRun left.field.bits))
  else
    none

/-- A value of the field satisfies a match. -/
def Accepts (m : Match) (value : Word) : Prop :=
  value &&& m.mask = m.value

instance (m : Match) (value : Word) : Decidable (m.Accepts value) :=
  inferInstanceAs (Decidable (_ = _))

end Match

end PacketClassifier
