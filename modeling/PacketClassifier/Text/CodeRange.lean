/-!
# Sets of characters

A set of characters is given by the code points where membership changes, in
increasing order: from the first on characters are members, from the second on
they are not, and so on.
-/

namespace PacketClassifier.Text

/-- A set of characters, as the code points where membership changes. -/
structure CodeRanges where
  changes : List Nat

/-- A character is a member: an odd number of changes lie at or before it. -/
def CodeRanges.contains (ranges : CodeRanges) (character : Char) : Bool :=
  ranges.changes.countP (· ≤ character.toNat) % 2 == 1

end PacketClassifier.Text
