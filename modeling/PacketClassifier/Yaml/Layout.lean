import PacketClassifier.Yaml.Scalar
import PacketClassifier.Yaml.Token

/-!
# The layout of documents

The tokens of a document follow from its marks and from its lines.  Outside of
brackets the column of a part tells which block it belongs to: a part further to
the right than the innermost block may open one, and every block further to the
right than a part is closed before it.

A key need not be announced.  Whether a part was a key is known when the colon
of its value is met, so the places where keys may have started are remembered,
one for every pair of brackets that is open and one outside of them, and the
token of the key is put in afterwards.
-/

namespace PacketClassifier.Yaml

/-- A place where a key may have started. -/
structure KeyStart where
  position : Position
  /-- The number of tokens before it. -/
  index : Nat
  /-- Nothing but a key may start here. -/
  required : Bool

/-- The tokens that were read, and what decides about the tokens to come. -/
structure Layout where
  cursor : Cursor
  /-- The tokens that were read, the last first. -/
  reversed : List Token := []
  /-- The number of tokens that were read. -/
  count : Nat := 0
  /-- The columns of the blocks that are open, the innermost first. -/
  columns : List Nat := []
  /-- A key may come next. -/
  keyAllowed : Bool := true
  /-- Where the last key outside of brackets may have started. -/
  blockKey : Option KeyStart := none
  /-- Where the last key in each pair of open brackets may have started. -/
  bracketKeys : List (Option KeyStart) := []

namespace Layout

def inBrackets (layout : Layout) : Bool :=
  !layout.bracketKeys.isEmpty

def column (layout : Layout) : Nat :=
  layout.cursor.column

/-- The least column in which a scalar may go on. -/
def floor (layout : Layout) : Nat :=
  match layout.columns with
  | [] => 0
  | column :: _ => column + 1

/-- Where the last key may have started, inside the innermost brackets. -/
def keyStart (layout : Layout) : Option KeyStart :=
  match layout.bracketKeys with
  | [] => layout.blockKey
  | start :: _ => start

def withKeyStart (layout : Layout) (start : Option KeyStart) : Layout :=
  match layout.bracketKeys with
  | [] => { layout with blockKey := start }
  | _ :: outer => { layout with bracketKeys := start :: outer }

def emit (layout : Layout) (token : Token) : Layout :=
  { layout with
    reversed := token :: layout.reversed
    count := layout.count + 1 }

/-- Put a token in behind the first `index` tokens. -/
def insert (layout : Layout) (index : Nat) (token : Token) : Layout :=
  { layout with
    reversed := layout.reversed.insertIdx (layout.count - index) token
    count := layout.count + 1 }

/-- Read a mark of one character. -/
def mark (layout : Layout) (token : Token) : Layout :=
  { layout.emit token with cursor := layout.cursor.next }

/--
Open a block in a column, behind the first `index` tokens, unless a block is
open there.
-/
def openBlock (layout : Layout) (token : Token) (column index : Nat) : Layout :=
  if layout.inBrackets || layout.columns.head?.any (column ≤ ·) then
    layout
  else
    { layout.insert index token with columns := column :: layout.columns }

/-- Close the blocks in the columns from `bound` on. -/
def closeBlocks (layout : Layout) (bound : Nat) : Layout :=
  if layout.inBrackets then
    layout
  else
    (layout.columns.takeWhile (bound ≤ ·)).foldl
      (fun layout _ => layout.emit .blockEnd)
      { layout with columns := layout.columns.dropWhile (bound ≤ ·) }

/-- What was read last was no key. -/
def refuseKey (layout : Layout) : Option Layout :=
  if layout.keyStart.any KeyStart.required then
    none
  else
    some (layout.withKeyStart none)

/-- The next part is a key, if a colon follows it. -/
def proposeKey (layout : Layout) : Option Layout :=
  if layout.keyAllowed then do
    let required :=
      !layout.inBrackets && layout.columns.head? == some layout.column
    let start := ⟨layout.cursor.position, layout.count, required⟩
    let layout ← layout.refuseKey
    some (layout.withKeyStart (some start))
  else
    some layout

/-- A key that has to be one can still be followed by its colon. -/
def keepsKey (layout : Layout) : Bool :=
  layout.blockKey.all (fun start =>
    !start.required || layout.cursor.closesKey start.position)

/-- Read a mark between documents. -/
def readMarker (layout : Layout) (token : Token) : Option Layout := do
  let layout ← (layout.closeBlocks 0).refuseKey
  some
    { layout.emit token with
      cursor := layout.cursor.next.next.next
      keyAllowed := false }

def readOpening (layout : Layout) (token : Token) : Option Layout := do
  let layout ← layout.proposeKey
  some
    { layout.mark token with
      keyAllowed := true
      bracketKeys := none :: layout.bracketKeys }

/-- Read a closing bracket.  Brackets need not be open. -/
def readClosing (layout : Layout) (token : Token) : Option Layout := do
  let layout ← layout.refuseKey
  some
    { layout.mark token with
      keyAllowed := false
      bracketKeys := layout.bracketKeys.tail }

def readComma (layout : Layout) : Option Layout := do
  let layout ← layout.refuseKey
  some { layout.mark .comma with keyAllowed := true }

/-- Read the announcement of an item or a key, which may open a block. -/
def readAnnouncement (layout : Layout) (block token : Token) : Option Layout :=
  if layout.inBrackets || layout.keyAllowed then do
    let layout ←
      (layout.openBlock block layout.column layout.count).refuseKey
    some { layout.mark token with keyAllowed := true }
  else
    none

/-- Read the question mark of a key. -/
def readQuestion (layout : Layout) : Option Layout :=
  (layout.readAnnouncement .blockMapping .key).map (fun layout =>
    { layout with keyAllowed := !layout.inBrackets })

/--
Read the colon of a value.  What was read last is its key, unless the key was
announced.
-/
def readColon (layout : Layout) : Option Layout :=
  match layout.keyStart.filter (layout.cursor.closesKey ·.position) with
  | some start =>
      let layout := (layout.insert start.index .key).openBlock .blockMapping
        start.position.column start.index
      some { (layout.withKeyStart none).mark .value with keyAllowed := false }
  | none =>
      if layout.inBrackets || layout.keyAllowed then
        let layout :=
          layout.openBlock .blockMapping layout.column layout.count
        some { layout.mark .value with keyAllowed := !layout.inBrackets }
      else
        none

def readScalar (layout : Layout) (style : Style)
    (read : Cursor → Option ScalarRead) : Option Layout := do
  let layout ← layout.proposeKey
  let scalar ← read layout.cursor
  some
    { layout.emit (.scalar style (String.ofList scalar.text)) with
      cursor := scalar.cursor
      keyAllowed := scalar.brokeLine }

def readQuotedScalar (layout : Layout) (double : Bool) : Option Layout :=
  layout.readScalar .quoted (fun cursor =>
    readQuoted double cursor.next.characters cursor.next.position .text []
      .nothing)

def readPlainScalar (layout : Layout) : Option Layout :=
  layout.readScalar .plain (fun cursor =>
    readPlain layout.inBrackets layout.floor cursor.characters cursor.position
      [] .nothing)

/-- Read the next token, which starts at the cursor. -/
def readToken (layout : Layout) : Option Layout :=
  let isMarker := layout.column == 0 && startsMarker layout.cursor.characters
  match layout.cursor.characters with
  | [] => none
  | first :: rest =>
      match first, isMarker, layout.inBrackets || startsBlank rest with
      | '-', true, _ => layout.readMarker .documentStart
      | _, true, _ => layout.readMarker .documentEnd
      | '[', _, _ => layout.readOpening .openSequence
      | '\x7b', _, _ => layout.readOpening .openMapping
      | ']', _, _ => layout.readClosing .closeSequence
      | '\x7d', _, _ => layout.readClosing .closeMapping
      | ',', _, _ => layout.readComma
      | '?', _, true => layout.readQuestion
      | ':', _, true => layout.readColon
      | '"', _, _ => layout.readQuotedScalar true
      | '\'', _, _ => layout.readQuotedScalar false
      | _, _, _ =>
          if first = '-' ∧ startsBlank rest then
            layout.readAnnouncement .blockSequence .item
          else if startsPlain first then
            layout.readPlainScalar
          else
            none

def skip (layout : Layout) : Layout :=
  let (cursor, keyAllowed) :=
    layout.cursor.skip layout.inBrackets layout.keyAllowed
  { layout with cursor, keyAllowed }

/--
Read the rest of the tokens.  Every step reads a character at least, so as much
fuel as there are characters, and one more, is enough.
-/
def readTokens : (fuel : Nat) → Layout → Option (List Token)
  | 0, _ => none
  | fuel + 1, layout => do
      let layout := layout.skip
      if layout.keepsKey then
        if layout.cursor.characters.isEmpty then
          let layout ← (layout.closeBlocks 0).refuseKey
          some layout.reversed.reverse
        else
          readTokens fuel (← (layout.closeBlocks (layout.column + 1)).readToken)
      else
        none

end Layout

/-- A character that documents may contain. -/
def isAllowed (character : Char) : Bool :=
  let code := character.toNat
  character ∈ ['\t', '\n', '\r', '\u0085'] || 0x20 ≤ code && code ≤ 0x7e ||
    0xa0 ≤ code && code ≤ 0xfffd || 0x10000 ≤ code

/-- The characters of a text, with every line ended in one way. -/
def normalizeLines : List Char → List Char
  | [] => []
  | '\r' :: '\n' :: rest => '\n' :: normalizeLines rest
  | '\r' :: rest | '\u0085' :: rest => '\n' :: normalizeLines rest
  | first :: rest => first :: normalizeLines rest

def tokens? (text : String) : Option (List Token) :=
  if text.toList.all isAllowed then
    let characters := normalizeLines text.toList
    Layout.readTokens (characters.length + 1) { cursor := ⟨characters, {}⟩ }
  else
    none

end PacketClassifier.Yaml
