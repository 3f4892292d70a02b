import PacketClassifier.Match
import PacketClassifier.Text.Address

/-!
# Written matches

A match is written as its field, an equals sign and what it constrains: an
address and a prefix length where the field holds addresses and the mask is a
leading run, a number where every bit is constrained, and otherwise a number
and a mask.  The structural form lists every part in decimal.
-/

namespace PacketClassifier

namespace MatchError

/-- What to tell the author of a match that is refused. -/
def message : MatchError → String
  | .duplicateField field =>
      "A match for field " ++ field.name ++ " is already present"
  | .valueTooWide field value =>
      "Value " ++ Text.hex value.toNat ++ " does not fit in the " ++
        Text.decimal field.bits ++ " bits of field " ++ field.name
  | .maskTooWide field mask =>
      "Mask " ++ Text.hex mask.toNat ++ " does not fit in the " ++
        Text.decimal field.bits ++ " bits of field " ++ field.name
  | .invalidPrefixLength field length =>
      "Prefix length " ++ Text.decimal length ++ " is invalid for field " ++
        field.name

end MatchError

namespace Match

/-- How the address in a field is written, for fields whose matches show one. -/
def addressText? (field : Field) (value : Word) : Option String :=
  if field = .ipv4Src ∨ field = .ipv4Dst then
    some (Text.ipv4 value)
  else if field.bits = 128 then
    some (Text.ipv6 value)
  else
    none

/-- What a match constrains its field to. -/
def constraintText (m : Match) : String :=
  match addressText? m.field m.value, m.prefixLength? with
  | some address, some length => address ++ "/" ++ Text.decimal length
  | _, _ =>
      if m.IsExact then
        Text.hex m.value.toNat
      else
        Text.hex m.value.toNat ++ "/" ++ Text.hex m.mask.toNat

/-- A match as written in rules. -/
def text (m : Match) : String :=
  m.field.name ++ "=" ++ m.constraintText

/-- A match with all its parts. -/
def structuralText (m : Match) : String :=
  "Match \x7b field: " ++ m.field.memberName ++
    ", value: " ++ Text.decimal m.value.toNat ++
    ", mask: " ++ Text.decimal m.mask.toNat ++ " \x7d"

end Match

end PacketClassifier
