import PacketClassifier.Text.CodeRange

/-!
# Blanks

The characters with the white-space property, and texts without the blanks at
their ends.
-/

namespace PacketClassifier.Text

/-- The characters with the white-space property. -/
def blanks : CodeRanges where
  changes :=
    [9, 14, 32, 33, 133, 134, 160, 161, 5760, 5761, 8192, 8203, 8232, 8234,
     8239, 8240, 8287, 8288, 12288, 12289]

/-- A character is white space. -/
def isBlank (character : Char) : Bool :=
  blanks.contains character

/-- The characters of a text between the blanks at its ends. -/
def trim (characters : List Char) : List Char :=
  ((characters.dropWhile isBlank).reverse.dropWhile isBlank).reverse

example : (['\t', ' ', '\u00a0'].all isBlank ∧ isBlank '\u200b' = false) := by
  decide

end PacketClassifier.Text
