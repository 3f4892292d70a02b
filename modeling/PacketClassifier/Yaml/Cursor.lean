/-!
# Positions in a document

A cursor is what is left of a document, together with the line and the column
at which it starts.  Between two parts of a document there may be blanks, line
breaks and comments.  Tabs never indent: in front of a part that may be a key
they are not skipped.  A byte order mark may start a line, and what follows it
stands one column further to the right.
-/

namespace PacketClassifier.Yaml

def isBreak (character : Char) : Bool :=
  character ∈ ['\n', '\u2028', '\u2029']

/-- A character is a space or a tab. -/
def isBlank (character : Char) : Bool :=
  character ∈ [' ', '\t']

/-- The text is at an end, or goes on with a blank or a line break. -/
def startsBlank : List Char → Bool
  | [] => true
  | first :: _ => isBlank first || isBreak first

/-- The text goes on with a mark between documents. -/
def startsMarker : List Char → Bool
  | '-' :: '-' :: '-' :: rest | '.' :: '.' :: '.' :: rest => startsBlank rest
  | _ => false

structure Position where
  line : Nat := 0
  /-- The number of characters before it in its line. -/
  column : Nat := 0
  /-- The number of bytes before it in the document. -/
  offset : Nat := 0
deriving DecidableEq, Inhabited

/-- The place behind a character. -/
def Position.after (position : Position) (character : Char) : Position :=
  let offset := position.offset + character.utf8Size
  if isBreak character then
    { line := position.line + 1, column := 0, offset }
  else
    { position with column := position.column + 1, offset }

structure Cursor where
  characters : List Char
  position : Position := {}
deriving DecidableEq, Inhabited

namespace Cursor

/-- The cursor behind the next character. -/
def next (cursor : Cursor) : Cursor :=
  match cursor.characters with
  | [] => cursor
  | first :: rest => ⟨rest, cursor.position.after first⟩

def column (cursor : Cursor) : Nat :=
  cursor.position.column

/--
What starts at `start` may be the key of a value announced here: both are on
one line, and at most 1024 bytes apart.
-/
def closesKey (cursor : Cursor) (start : Position) : Bool :=
  cursor.position.line == start.line &&
    cursor.position.offset ≤ start.offset + 1024

end Cursor

/--
Skip blanks, line breaks, comments and the byte order marks that start lines.
The result also tells whether a key may come next: it may if it could before,
and outside brackets on every new line.
-/
def skipFrom (inBrackets : Bool) : List Char → Position →
    (keyAllowed inComment : Bool) → Cursor × Bool
  | [], position, keyAllowed, _ => (⟨[], position⟩, keyAllowed)
  | first :: rest, position, keyAllowed, inComment =>
      let after := position.after first
      if isBreak first then
        skipFrom inBrackets rest after (keyAllowed || !inBrackets) false
      else if inComment then
        skipFrom inBrackets rest after keyAllowed true
      else if first = ' ' ∨ first = '\t' ∧ (inBrackets ∨ !keyAllowed) then
        skipFrom inBrackets rest after keyAllowed false
      else if first = '#' then
        skipFrom inBrackets rest after keyAllowed true
      else if first = '\ufeff' ∧ position.column = 0 then
        skipFrom inBrackets rest after keyAllowed false
      else
        (⟨first :: rest, position⟩, keyAllowed)

def Cursor.skip (cursor : Cursor) (inBrackets keyAllowed : Bool) : Cursor × Bool :=
  skipFrom inBrackets cursor.characters cursor.position keyAllowed false

end PacketClassifier.Yaml
