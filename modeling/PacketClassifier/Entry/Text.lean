import PacketClassifier.Instruction.Text
import PacketClassifier.MatchSet.Text
import PacketClassifier.Removal

/-!
# Written entries

An entry is written as its priority, its cookie unless zero, its conjunction
and its instructions.  Statistics, notices and the structural form build on it.
-/

namespace PacketClassifier

namespace Entry

/-- How a cookie shows in the text of an entry. -/
def cookieText (cookie : UInt64) : String :=
  if cookie = 0 then "" else "cookie=" ++ Text.hex cookie.toNat ++ " "

/-- An entry as written in listings. -/
def text (entry : Entry) : String :=
  "priority=" ++ Text.decimal entry.priority.toNat ++ " " ++
    cookieText entry.cookie ++ "match=" ++ entry.matchSet.text ++
    " actions=" ++ entry.instructions.text

/-- An entry with its parts, save instructions and flags. -/
def structuralText (entry : Entry) : String :=
  let table := match entry.table with
    | none => "None"
    | some table => "Some(" ++ table.structuralText ++ ")"
  "FlowEntry \x7b priority: " ++ Text.decimal entry.priority.toNat ++
    ", cookie: " ++ Text.decimal entry.cookie.toNat ++
    ", cookie_mask: " ++ Text.decimal entry.cookieMask.toNat ++
    ", matches: " ++ entry.matchSet.structuralText ++
    ", table: " ++ table ++
    ", stats: " ++ entry.counters.structuralText ++ ", .. \x7d"

end Entry

/-- Counters after the text of what they belong to. -/
def Counters.text (counters : Counters) : String :=
  "packets=" ++ Text.decimal counters.packets.toNat ++
    " bytes=" ++ Text.decimal counters.bytes.toNat

/-- A notice of removal as written to a log. -/
def RemovalNotice.text (notice : RemovalNotice) : String :=
  let table := (notice.entry.table.map TableId.text).getD "-"
  "Flow removed (" ++ notice.reason.text ++ ") from table " ++ table ++ ": " ++
    notice.entry.text ++ " " ++ notice.entry.counters.text

end PacketClassifier
