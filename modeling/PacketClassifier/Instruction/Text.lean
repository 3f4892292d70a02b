import PacketClassifier.Instruction
import PacketClassifier.Match.Text

/-!
# Written instructions

Instructions are written in the order of execution between blanks, the actions
of an instruction between commas.  An entry without instructions drops packets,
and its instruction set is written as a drop.
-/

namespace PacketClassifier

/-- An action as written in rules. -/
def Action.text : Action → String
  | .output port => "output:" ++ port.text
  | .group target => "group:" ++ target.text
  | .setField assignment => "set_field:" ++ assignment.text
  | .pushVlan etherType => "push_vlan:" ++ Text.hexPadded 4 etherType.toNat
  | .popVlan => "pop_vlan"
  | .setQueue queue => "set_queue:" ++ Text.decimal queue.toNat
  | .decrementTtl => "dec_nw_ttl"
  | .setTtl ttl => "set_nw_ttl:" ++ Text.decimal ttl.toNat

/-- Actions between the brackets of the instruction that carries them. -/
def Action.listText (actions : List Action) : String :=
  "(" ++ Text.joined "," (actions.map Action.text) ++ ")"

/-- An instruction as written in rules. -/
def Instruction.text : Instruction → String
  | .applyActions actions => "apply" ++ Action.listText actions
  | .clearActions => "clear"
  | .writeActions actions => "write" ++ Action.listText actions
  | .writeMetadata metadata mask =>
      "write_metadata(" ++ Text.hex metadata.toNat ++ "/" ++
        Text.hex mask.toNat ++ ")"
  | .gotoTable table => "goto(" ++ table.text ++ ")"

/-- The name of a kind of instruction. -/
def InstructionKind.name : InstructionKind → String
  | .applyActions => "apply"
  | .clearActions => "clear"
  | .writeActions => "write"
  | .writeMetadata => "write_metadata"
  | .gotoTable => "goto"

/-- The kind of instruction of a given name. -/
def InstructionKind.ofName? (name : String) : Option InstructionKind :=
  all.find? (fun kind => kind.name == name)

/-- An instruction set as written in rules. -/
def InstructionSet.text (set : InstructionSet) : String :=
  match set.toList with
  | [] => "drop"
  | instructions => Text.joined " " (instructions.map Instruction.text)

/-- What to tell the author of instructions that are refused. -/
def InstructionError.message : InstructionError → String
  | .unknownGroup group => "Group " ++ group.text ++ " does not exist"
  | .invalidGoto source target =>
      "Table " ++ source.text ++
        " may only send packets to a later table, not to table " ++ target.text

end PacketClassifier
