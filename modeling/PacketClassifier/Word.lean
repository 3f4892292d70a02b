/-!
# Machine words

Values and masks of header fields are words of 128 bits, wide enough for every
field.  This module adds to the bit vectors of the standard library what masks
need: runs of leading bits, and the number of bits set.
-/

namespace PacketClassifier

/-- A value of a header field, or a mask over one. -/
abbrev Word := BitVec 128

namespace Word

/-- The word whose `count` lowest bits are set. -/
def lowBits (count : Nat) : Word :=
  (BitVec.allOnes count).setWidth 128

/-- The number of bits set. -/
def popCount (word : Word) : Nat :=
  (List.range 128).countP word.getLsbD

/--
The length of the unbroken run of set bits that starts just below bit `width`
and goes down.
-/
def leadingRun (word : Word) : (width : Nat) → Nat
  | 0 => 0
  | below + 1 =>
      if word.getLsbD below then leadingRun word below + 1 else 0

end Word

end PacketClassifier
