import PacketClassifier.Text.Numeral
import PacketClassifier.Text.Printable

/-!
# Quoted texts

A quoted text stands between double quotes.  Quotes, backslashes and characters
that do not show are escaped.
-/

namespace PacketClassifier.Text

/-- A character inside quotes. -/
def escaped (character : Char) : List Char :=
  match character with
  | '\x00' => ['\\', '0']
  | '\t' => ['\\', 't']
  | '\r' => ['\\', 'r']
  | '\n' => ['\\', 'n']
  | '\\' => ['\\', '\\']
  | '"' => ['\\', '"']
  | _ =>
      if isPrintable character then
        [character]
      else
        ['\\', 'u', '\x7b'] ++ Nat.toDigits 16 character.toNat ++ ['\x7d']

/-- A text between double quotes. -/
def quoted (text : String) : String :=
  "\"" ++ String.ofList (text.toList.flatMap escaped) ++ "\""

end PacketClassifier.Text
