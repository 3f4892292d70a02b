import PacketClassifier.Yaml.Cursor

/-!
# Reading scalars

A scalar may go on over several lines.  Blanks around a line break do not
count; a single break counts as a space, and of several breaks all but the
first.  A plain scalar ends before a value mark, a comment, a line that is not
indented enough, and inside brackets before punctuation.
-/

namespace PacketClassifier.Yaml

/-- Blanks and line breaks between two characters of a scalar. -/
inductive Gap where
  | nothing
  /-- Blanks only, the last first. -/
  | blanks (reversed : List Char)
  /--
  Line breaks, the last first, behind the first break.  A break that is escaped
  is no first break.
  -/
  | breaks (first : Option Char) (reversed : List Char)
deriving DecidableEq

namespace Gap

def hasBreaks : Gap → Bool
  | .breaks .. => true
  | _ => false

/-- A gap with one more blank or break. -/
def extend (gap : Gap) (character : Char) : Gap :=
  match gap, isBreak character with
  | .nothing, false => .blanks [character]
  | .blanks reversed, false => .blanks (character :: reversed)
  | .breaks first reversed, false => .breaks first reversed
  | .breaks first reversed, true => .breaks first (character :: reversed)
  | _, true => .breaks (some character) []

def text : Gap → List Char
  | .nothing => []
  | .blanks reversed => reversed.reverse
  | .breaks (some '\n') [] => [' ']
  | .breaks (some '\n') reversed => reversed.reverse
  | .breaks first reversed => first.toList ++ reversed.reverse

end Gap

/-- The punctuation of sequences and mappings in brackets. -/
def isFlowMark (character : Char) : Bool :=
  character ∈ [',', '[', ']', '\x7b', '\x7d']

/--
A plain scalar may start with this character.  A hyphen, a question mark and a
colon start one too where they are no marks.
-/
def startsPlain (first : Char) : Bool :=
  !(isBlank first || isBreak first || isFlowMark first ||
    first ∈ ['#', '&', '*', '!', '|', '>', '\'', '"', '%', '@', '\x60'])

/-- A scalar that was read, with what is left behind it. -/
structure ScalarRead where
  text : List Char
  cursor : Cursor
  /-- The scalar was followed by a line break. -/
  brokeLine : Bool

/--
A plain scalar ends before a character that is no blank and no break.  The
character stands at `position` behind `gap`, and `rest` follows it.
-/
def endsPlain (inBrackets : Bool) (floor : Nat) (first : Char)
    (rest : List Char) (position : Position) (gap : Gap) : Bool :=
  gap ≠ .nothing &&
      (!inBrackets && position.column < floor || first == '#' ||
        position.column == 0 && startsMarker (first :: rest)) ||
    first == ':' && startsBlank rest || inBrackets && isFlowMark first

/--
Read a plain scalar.  Lines that go on with it are indented by `floor` columns
at least.  `reversed` is what was read so far.
-/
def readPlain (inBrackets : Bool) (floor : Nat) : List Char → Position →
    (reversed : List Char) → Gap → Option ScalarRead
  | [], position, reversed, gap =>
      some ⟨reversed.reverse, ⟨[], position⟩, gap.hasBreaks⟩
  | first :: rest, position, reversed, gap =>
      if isBlank first ∨ isBreak first then
        if first = '\t' ∧ gap.hasBreaks ∧ position.column < floor then
          none
        else
          readPlain inBrackets floor rest (position.after first) reversed
            (gap.extend first)
      else if endsPlain inBrackets floor first rest position gap then
        some ⟨reversed.reverse, ⟨first :: rest, position⟩, gap.hasBreaks⟩
      else if inBrackets ∧ first = ':' ∧
          rest.head?.any (fun next => isFlowMark next || next == '?') then
        none
      else
        readPlain inBrackets floor rest (position.after first)
          (first :: (gap.text.reverse ++ reversed)) .nothing

/-- What the next character of a quoted scalar means. -/
inductive QuoteMode where
  | text
  /-- Behind a quote that ends the scalar, unless it is written twice. -/
  | quote
  | escape
  /-- Inside a code point with this many digits to come. -/
  | code (digits value : Nat)
deriving DecidableEq

/-- The character that an escape of one letter stands for. -/
def escapedChar? : Char → Option Char
  | '0' => some '\x00'
  | 'a' => some '\x07'
  | 'b' => some '\x08'
  | 't' | '\t' => some '\t'
  | 'n' => some '\n'
  | 'v' => some '\x0b'
  | 'f' => some '\x0c'
  | 'r' => some '\r'
  | 'e' => some '\x1b'
  | ' ' => some ' '
  | '"' => some '"'
  | '/' => some '/'
  | '\\' => some '\\'
  | 'N' => some '\u0085'
  | '_' => some '\u00a0'
  | 'L' => some '\u2028'
  | 'P' => some '\u2029'
  | _ => none

/-- The number of digits of a code point behind an escape letter. -/
def codeDigits? : Char → Option Nat
  | 'x' => some 2
  | 'u' => some 4
  | 'U' => some 8
  | _ => none

def digitValue? (digit : Char) : Option Nat :=
  if '0' ≤ digit ∧ digit ≤ '9' then some (digit.toNat - '0'.toNat)
  else if 'a' ≤ digit ∧ digit ≤ 'f' then some (digit.toNat - 'a'.toNat + 10)
  else if 'A' ≤ digit ∧ digit ≤ 'F' then some (digit.toNat - 'A'.toNat + 10)
  else none

/-- The character with a given code point, if there is one. -/
def charOfCode? (code : Nat) : Option Char :=
  if code.isValidChar then some (Char.ofNat code) else none

/-- Read a quoted scalar from behind its opening quote. -/
def readQuoted (double : Bool) : List Char → Position → QuoteMode →
    (reversed : List Char) → Gap → Option ScalarRead
  | [], position, .quote, reversed, _ =>
      some ⟨reversed.reverse, ⟨[], position⟩, false⟩
  | [], _, _, _, _ => none
  | first :: rest, position, mode, reversed, gap =>
      let after := position.after first
      match mode with
      | .quote =>
          if first = '\'' then
            readQuoted double rest after .text ('\'' :: reversed) .nothing
          else
            some ⟨reversed.reverse, ⟨first :: rest, position⟩, false⟩
      | .escape =>
          if isBreak first then
            readQuoted double rest after .text reversed (.breaks none [])
          else
            match escapedChar? first, codeDigits? first with
            | some character, _ =>
                readQuoted double rest after .text (character :: reversed) .nothing
            | none, some digits =>
                readQuoted double rest after (.code digits 0) reversed .nothing
            | none, none => none
      | .code digits value =>
          match digitValue? first with
          | none => none
          | some digit =>
              let value := 16 * value + digit
              if digits ≤ 1 then
                match charOfCode? value with
                | none => none
                | some character =>
                    readQuoted double rest after .text (character :: reversed)
                      .nothing
              else
                readQuoted double rest after (.code (digits - 1) value) reversed
                  .nothing
      | .text =>
          if position.column = 0 ∧ startsMarker (first :: rest) then
            none
          else if isBlank first ∨ isBreak first then
            readQuoted double rest after .text reversed (gap.extend first)
          else
            let reversed := gap.text.reverse ++ reversed
            if double ∧ first = '"' then
              some ⟨reversed.reverse, ⟨rest, after⟩, false⟩
            else if double ∧ first = '\\' then
              readQuoted double rest after .escape reversed .nothing
            else if !double ∧ first = '\'' then
              readQuoted double rest after .quote reversed .nothing
            else
              readQuoted double rest after .text (first :: reversed) .nothing

end PacketClassifier.Yaml
