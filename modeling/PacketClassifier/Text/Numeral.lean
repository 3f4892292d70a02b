/-!
# Written numbers

Numbers appear in texts in two bases.  Decimal numbers use the standard
library's digits; hexadecimal numbers carry the mark `0x` and lowercase
digits, without leading zeros unless a least number of digits is asked for.
-/

namespace PacketClassifier.Text

/-- A hexadecimal number: `0x` and its digits. -/
def hex (number : Nat) : String :=
  "0x" ++ String.ofList (Nat.toDigits 16 number)

/-- A hexadecimal number of at least `width` digits, filled up with zeros. -/
def hexPadded (width number : Nat) : String :=
  let digits := Nat.toDigits 16 number
  "0x" ++ String.ofList (List.replicate (width - digits.length) '0' ++ digits)

/-- A decimal number. -/
def decimal (number : Nat) : String :=
  String.ofList (Nat.toDigits 10 number)

/-- A text moved to the right end of a column of `width` characters. -/
def alignRight (width : Nat) (text : String) : String :=
  String.ofList (List.replicate (width - text.length) ' ') ++ text

/-- Texts one after the other, with `separator` between neighbours. -/
def joined (separator : String) (texts : List String) : String :=
  String.intercalate separator texts

end PacketClassifier.Text
