import PacketClassifier.Text.Numeral

/-!
# Numbers of tables, ports and groups

Tables, ports and groups are known by number.  The last numbers of each range
are reserved and have a name instead; among them are the ones that stand for
every table, port or group in a request.
-/

namespace PacketClassifier

/-- The position of a table in a pipeline. -/
structure TableId where
  number : UInt8
deriving DecidableEq, Inhabited

namespace TableId

/-- In a request: every table. -/
def all : TableId := ⟨255⟩

def text (table : TableId) : String :=
  if table = all then "all" else Text.decimal table.number.toNat

def structuralText (table : TableId) : String :=
  "TableId(" ++ Text.decimal table.number.toNat ++ ")"

end TableId

/-- A port of the switch. -/
structure PortNo where
  number : UInt32
deriving DecidableEq, Inhabited

namespace PortNo

/-- The port that leads to the controller. -/
def controller : PortNo := ⟨0xfffffffd⟩

/-- The port that leads to the switch's own network stack. -/
def localStack : PortNo := ⟨0xfffffffe⟩

/-- In a request: any port, or none. -/
def any : PortNo := ⟨0xffffffff⟩

def text (port : PortNo) : String :=
  if port = controller then "controller"
  else if port = localStack then "local"
  else if port = any then "any"
  else Text.decimal port.number.toNat

end PortNo

/-- A group of the group table. -/
structure GroupId where
  number : UInt32
deriving DecidableEq, Inhabited

namespace GroupId

def all : GroupId := ⟨0xfffffffc⟩

/-- In a request: any group, or none. -/
def any : GroupId := ⟨0xffffffff⟩

def text (group : GroupId) : String :=
  if group = all then "all"
  else if group = any then "any"
  else Text.decimal group.number.toNat

def structuralText (group : GroupId) : String :=
  "GroupId(" ++ Text.decimal group.number.toNat ++ ")"

end GroupId

/--
Restricts a request to entries that send packets to a port and to a group.
-/
structure OutputFilter where
  port : PortNo := PortNo.any
  group : GroupId := GroupId.any
deriving DecidableEq, Inhabited

end PacketClassifier
