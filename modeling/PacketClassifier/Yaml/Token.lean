import PacketClassifier.Yaml.Node

/-!
# Tokens

A document as a row of tokens: its scalars, the marks between them, and the
places where blocks start and end, which are marked by indentation alone.
-/

namespace PacketClassifier.Yaml

/-- A part of the text of a document, or a place that its layout tells. -/
inductive Token where
  | documentStart
  | documentEnd
  /-- A sequence in lines starts here. -/
  | blockSequence
  /-- A mapping in lines starts here. -/
  | blockMapping
  /-- The innermost sequence or mapping in lines ends here. -/
  | blockEnd
  | openSequence
  | closeSequence
  | openMapping
  | closeMapping
  | comma
  /-- An item of a sequence in lines comes next. -/
  | item
  /-- A key comes next, whether a question mark announces it or not. -/
  | key
  /-- The value of a key comes next. -/
  | value
  | scalar (style : Style) (text : String)
deriving DecidableEq

/-- A part in brackets ends before this token, or is left out. -/
def Token.endsInline : Token → Bool
  | .comma | .closeSequence | .closeMapping => true
  | _ => false

/-- A part of a block ends before this token, or is left out. -/
def Token.endsBlock : Token → Bool
  | .key | .value | .blockEnd => true
  | _ => false

end PacketClassifier.Yaml
