import PacketClassifier.Match.Text
import PacketClassifier.MatchSet

/-!
# Written conjunctions

A conjunction is written as its matches between commas, or as a star when it
constrains nothing.
-/

namespace PacketClassifier.MatchSet

/-- A conjunction as written in rules. -/
def text (set : MatchSet) : String :=
  match set.toList with
  | [] => "*"
  | list => Text.joined "," (list.map Match.text)

/-- A conjunction with all the parts of its matches. -/
def structuralText (set : MatchSet) : String :=
  "MatchSet([" ++ Text.joined ", " (set.toList.map Match.structuralText) ++ "])"

end PacketClassifier.MatchSet
