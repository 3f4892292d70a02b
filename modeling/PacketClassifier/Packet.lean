import PacketClassifier.Match
import PacketClassifier.Text.Numeral

/-!
# Packets

To the classifier a packet is what its header fields hold: a partial map from
fields to values.  Storing a value drops the bits that the field cannot hold.
-/

namespace PacketClassifier

/-- The values of the header fields that a packet carries. -/
structure Packet where
  field? : Field → Option Word

namespace Packet

/-- A packet that carries no field. -/
def empty : Packet where
  field? _ := none

/-- Store a value in a field, without the bits beyond the width of the field. -/
def set (packet : Packet) (field : Field) (value : Word) : Packet where
  field? other :=
    if other = field then some (value &&& field.fullMask)
    else packet.field? other

/-- Take a field out of a packet. -/
def unset (packet : Packet) (field : Field) : Packet where
  field? other := if other = field then none else packet.field? other

/-- The fields carried, in field order, each with its value in hexadecimal. -/
def text (packet : Packet) : String :=
  Text.joined " " (Field.all.filterMap (fun field =>
    (packet.field? field).map (fun value =>
      field.name ++ "=" ++ Text.hex value.toNat)))

end Packet

/-- A packet satisfies a match: it carries the field, with a value accepted. -/
def Match.Admits (m : Match) (packet : Packet) : Prop :=
  ∃ value ∈ packet.field? m.field, m.Accepts value

instance (m : Match) (packet : Packet) : Decidable (m.Admits packet) :=
  match found : packet.field? m.field with
  | none => isFalse (by simp [Match.Admits, found])
  | some value =>
      decidable_of_iff (m.Accepts value) (by simp [Match.Admits, found])

end PacketClassifier
