import PacketClassifier.Yaml.Layout

/-!
# Reading documents

Sequences and mappings are written in brackets, or as blocks: one item or pair
a line, the parts of a block in one column and what is inside them further to
the right.  A sequence that is the value of a pair may start in the column of
the pair.  A key of any kind may be announced by a question mark; such a key may
be left out, and so may every value.

Documents of this subset have block and bracketed sequences and mappings, plain
and quoted scalars, and comments.  There are no anchors, tags or block scalars,
and there is one document to a text.
-/

namespace PacketClassifier.Yaml

/-- A part of a document that was read, with the tokens behind it. -/
structure NodeRead where
  node : Node
  rest : List Token

/-- Where a part of a document stands. -/
inductive Place where
  | brackets
  /-- In a sequence of lines, or as the whole document. -/
  | item
  | pair
deriving DecidableEq

/-- A part that stands in front of these tokens is left out. -/
def Place.leavesOut (place : Place) : List Token → Bool
  | [] => false
  | .item :: _ => place = .item
  | token :: _ =>
      if place = .brackets then token.endsInline else token.endsBlock

mutual

/-- Read a part of a document that is not left out. -/
def readNode (place : Place) : (fuel : Nat) → List Token → Option NodeRead
  | 0, _ => none
  | fuel + 1, tokens =>
      match tokens with
      | .scalar style text :: rest => some ⟨.scalar style text, rest⟩
      | .openSequence :: rest => readItems fuel rest []
      | .openMapping :: rest => readPairs fuel rest []
      | .blockSequence :: rest =>
          if place = .brackets then none else readBlockItems true fuel rest []
      | .blockMapping :: rest =>
          if place = .brackets then none else readBlockPairs fuel rest []
      | .item :: _ =>
          if place = .pair then readBlockItems false fuel tokens [] else none
      | _ => none

def readPart (place : Place) : (fuel : Nat) → List Token → Option NodeRead
  | 0, _ => none
  | fuel + 1, tokens =>
      if place.leavesOut tokens then
        some ⟨.missing, tokens⟩
      else
        readNode place fuel tokens

/-- Read what a value mark announces, if there is one. -/
def readValue (place : Place) : (fuel : Nat) → List Token → Option NodeRead
  | 0, _ => none
  | fuel + 1, tokens =>
      match tokens with
      | .value :: rest => readPart place fuel rest
      | _ => some ⟨.missing, tokens⟩

/--
Read the items of a sequence in brackets, from behind a bracket or comma.  An
item with a key is a mapping of its own.  Where its key is announced and left
out, the token in the place of the key is passed over, be it the colon of a
value, a comma or a bracket.
-/
def readItems : (fuel : Nat) → List Token → (reversed : List Node) →
    Option NodeRead
  | 0, _, _ => none
  | fuel + 1, tokens, reversed =>
      match tokens with
      | .closeSequence :: rest => some ⟨.sequence reversed.reverse, rest⟩
      | .key :: .value :: rest | .key :: .comma :: rest
      | .key :: .closeSequence :: rest => do
          let value ← readValue .brackets fuel rest
          readMoreItems fuel value.rest
            (.mapping [(.missing, value.node)] :: reversed)
      | .key :: rest => do
          let key ← readNode .brackets fuel rest
          let value ← readValue .brackets fuel key.rest
          readMoreItems fuel value.rest
            (.mapping [(key.node, value.node)] :: reversed)
      | _ => do
          let item ← readNode .brackets fuel tokens
          readMoreItems fuel item.rest (item.node :: reversed)

/-- Read what follows an item in brackets. -/
def readMoreItems : (fuel : Nat) → List Token → (reversed : List Node) →
    Option NodeRead
  | 0, _, _ => none
  | fuel + 1, tokens, reversed =>
      match tokens with
      | .closeSequence :: rest => some ⟨.sequence reversed.reverse, rest⟩
      | .comma :: rest => readItems fuel rest reversed
      | _ => none

/-- Read the pairs of a mapping in brackets, from behind a bracket or comma. -/
def readPairs : (fuel : Nat) → List Token →
    (reversed : List (Node × Node)) → Option NodeRead
  | 0, _, _ => none
  | fuel + 1, tokens, reversed =>
      match tokens with
      | .closeMapping :: rest => some ⟨.mapping reversed.reverse, rest⟩
      | .key :: .value :: rest => do
          let value ← readPart .brackets fuel rest
          readMorePairs fuel value.rest ((.missing, value.node) :: reversed)
      | .key :: rest => do
          let key ← readPart .brackets fuel rest
          let value ← readValue .brackets fuel key.rest
          readMorePairs fuel value.rest ((key.node, value.node) :: reversed)
      | _ => do
          let key ← readNode .brackets fuel tokens
          readMorePairs fuel key.rest ((key.node, .missing) :: reversed)

/-- Read what follows a pair in brackets. -/
def readMorePairs : (fuel : Nat) → List Token →
    (reversed : List (Node × Node)) → Option NodeRead
  | 0, _, _ => none
  | fuel + 1, tokens, reversed =>
      match tokens with
      | .closeMapping :: rest => some ⟨.mapping reversed.reverse, rest⟩
      | .comma :: rest => readPairs fuel rest reversed
      | _ => none

/--
Read the items of a sequence in lines.  A sequence in the column of a mapping is
no block of its own, and ends before any other token.
-/
def readBlockItems (isBlock : Bool) : (fuel : Nat) → List Token →
    (reversed : List Node) → Option NodeRead
  | 0, _, _ => none
  | fuel + 1, tokens, reversed =>
      match tokens, isBlock with
      | .item :: rest, _ => do
          let item ← readPart .item fuel rest
          readBlockItems isBlock fuel item.rest (item.node :: reversed)
      | .blockEnd :: rest, true => some ⟨.sequence reversed.reverse, rest⟩
      | _, true => none
      | _, false => some ⟨.sequence reversed.reverse, tokens⟩

/-- Read the pairs of a mapping in lines. -/
def readBlockPairs : (fuel : Nat) → List Token →
    (reversed : List (Node × Node)) → Option NodeRead
  | 0, _, _ => none
  | fuel + 1, tokens, reversed =>
      match tokens with
      | .key :: rest => do
          let key ← readPart .pair fuel rest
          let value ← readValue .pair fuel key.rest
          readBlockPairs fuel value.rest ((key.node, value.node) :: reversed)
      | .blockEnd :: rest => some ⟨.mapping reversed.reverse, rest⟩
      | _ => none

end

/--
Read the node of a document.  A document that is announced may be empty, and so
may a whole text.
-/
def readDocument (fuel : Nat) : List Token → Option NodeRead
  | [] | [.documentStart] => some ⟨.missing, []⟩
  | .documentStart :: .documentEnd :: rest => some ⟨.missing, rest⟩
  | .documentStart :: rest | rest => readNode .item fuel rest

/--
Read the document of a text.  Every token is behind at most a few steps of the
reader, so fuel in proportion to the number of tokens is enough.
-/
def read (text : String) : Option Node := do
  let tokens ← tokens? text
  let document ← readDocument (4 * tokens.length + 4) tokens
  if document.rest.all (· = .documentEnd) then some document.node else none

end PacketClassifier.Yaml
