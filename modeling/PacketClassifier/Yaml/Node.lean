/-!
# Documents as trees

A document is a tree of scalars, sequences and mappings.  A scalar remembers
whether it was quoted, because only plain scalars can be truth values or stand
for something that was left out.
-/

namespace PacketClassifier.Yaml

/-- How a scalar was written. -/
inductive Style where
  | plain
  | quoted
deriving DecidableEq

inductive Node where
  | scalar (style : Style) (text : String)
  | sequence (items : List Node)
  | mapping (pairs : List (Node × Node))
deriving Inhabited

/-- What stands for a part that was left out. -/
def Node.missing : Node :=
  .scalar .plain ""

end PacketClassifier.Yaml
