import PacketClassifier.Identifier
import PacketClassifier.Match

/-!
# Instructions

What an entry does with the packets it catches: actions carried out at once,
actions left for the end of the pipeline, metadata, and the table to go to
next.  An entry has at most one instruction of each kind, so an instruction set
is a record with one place per kind, in the order of execution.
-/

namespace PacketClassifier

/-- One thing to do with a packet. -/
inductive Action where
  | output (port : PortNo)
  | group (group : GroupId)
  | setField (assignment : Match)
  | pushVlan (etherType : UInt16)
  | popVlan
  | setQueue (queue : UInt32)
  | decrementTtl
  | setTtl (ttl : UInt8)
deriving DecidableEq

/-- The kinds of instructions, in the order of execution. -/
inductive InstructionKind where
  | applyActions
  | clearActions
  | writeActions
  | writeMetadata
  | gotoTable
deriving DecidableEq

inductive Instruction where
  | applyActions (actions : List Action)
  | clearActions
  | writeActions (actions : List Action)
  | writeMetadata (metadata mask : UInt64)
  | gotoTable (table : TableId)
deriving DecidableEq

namespace InstructionKind

def all : List InstructionKind :=
  [.applyActions, .clearActions, .writeActions, .writeMetadata, .gotoTable]

end InstructionKind

namespace Instruction

def kind : Instruction → InstructionKind
  | .applyActions _ => .applyActions
  | .clearActions => .clearActions
  | .writeActions _ => .writeActions
  | .writeMetadata .. => .writeMetadata
  | .gotoTable _ => .gotoTable

/-- The actions that an instruction carries. -/
def actions : Instruction → List Action
  | .applyActions actions | .writeActions actions => actions
  | .clearActions | .writeMetadata .. | .gotoTable _ => []

end Instruction

/-- At most one instruction of each kind. -/
structure InstructionSet where
  applied : Option (List Action) := none
  clears : Bool := false
  written : Option (List Action) := none
  metadata : Option (UInt64 × UInt64) := none
  nextTable : Option TableId := none
deriving DecidableEq, Inhabited

namespace InstructionSet

def empty : InstructionSet := {}

/-- The instruction of a kind, if there is one. -/
def get? (set : InstructionSet) : InstructionKind → Option Instruction
  | .applyActions => set.applied.map .applyActions
  | .clearActions => if set.clears then some .clearActions else none
  | .writeActions => set.written.map .writeActions
  | .writeMetadata =>
      set.metadata.map (fun (metadata, mask) => .writeMetadata metadata mask)
  | .gotoTable => set.nextTable.map .gotoTable

/-- Put an instruction in the place of the one of its kind. -/
def insert (set : InstructionSet) : Instruction → InstructionSet
  | .applyActions actions => { set with applied := some actions }
  | .clearActions => { set with clears := true }
  | .writeActions actions => { set with written := some actions }
  | .writeMetadata metadata mask =>
      { set with metadata := some (metadata, mask) }
  | .gotoTable table => { set with nextTable := some table }

/-- Take the instruction of a kind out of a set. -/
def erase (set : InstructionSet) : InstructionKind → InstructionSet
  | .applyActions => { set with applied := none }
  | .clearActions => { set with clears := false }
  | .writeActions => { set with written := none }
  | .writeMetadata => { set with metadata := none }
  | .gotoTable => { set with nextTable := none }

/-- The instruction set of a list; of several of one kind the last stays. -/
def ofList (instructions : List Instruction) : InstructionSet :=
  instructions.foldl insert empty

/-- The instructions of a set, in the order of execution. -/
def toList (set : InstructionSet) : List Instruction :=
  InstructionKind.all.filterMap set.get?

/-- The actions of a set: those to carry out at once, then those left for later. -/
def actions (set : InstructionSet) : List Action :=
  set.toList.flatMap Instruction.actions

/-- Some action sends packets out of `port`. -/
def HasOutput (set : InstructionSet) (port : PortNo) : Prop :=
  .output port ∈ set.actions

instance (set : InstructionSet) (port : PortNo) :
    Decidable (set.HasOutput port) :=
  inferInstanceAs (Decidable (_ ∈ _))

/-- Some action sends packets to `group`. -/
def HasGroup (set : InstructionSet) (group : GroupId) : Prop :=
  .group group ∈ set.actions

instance (set : InstructionSet) (group : GroupId) :
    Decidable (set.HasGroup group) :=
  inferInstanceAs (Decidable (_ ∈ _))

/-- The groups that actions send packets to, in the order of the actions. -/
def groups (set : InstructionSet) : List GroupId :=
  set.actions.filterMap fun
    | .group group => some group
    | _ => none

/-- A filter lets a set pass that sends packets to the filter's port. -/
def PassesPort (set : InstructionSet) (filter : OutputFilter) : Prop :=
  filter.port = PortNo.any ∨ set.HasOutput filter.port

instance (set : InstructionSet) (filter : OutputFilter) :
    Decidable (set.PassesPort filter) :=
  inferInstanceAs (Decidable (_ ∨ _))

/-- A filter lets a set pass that sends packets to the filter's group. -/
def PassesGroup (set : InstructionSet) (filter : OutputFilter) : Prop :=
  filter.group = GroupId.any ∨ set.HasGroup filter.group

instance (set : InstructionSet) (filter : OutputFilter) :
    Decidable (set.PassesGroup filter) :=
  inferInstanceAs (Decidable (_ ∨ _))

/-- A filter lets a set pass for its port and for its group. -/
def Passes (set : InstructionSet) (filter : OutputFilter) : Prop :=
  set.PassesPort filter ∧ set.PassesGroup filter

instance (set : InstructionSet) (filter : OutputFilter) :
    Decidable (set.Passes filter) :=
  inferInstanceAs (Decidable (_ ∧ _))

end InstructionSet

/-- What is wrong with the instructions of an entry where it is to be installed. -/
inductive InstructionError where
  | unknownGroup (group : GroupId)
  | invalidGoto (source target : TableId)
deriving DecidableEq

namespace InstructionSet

/--
Every group that actions send packets to exists.  The first that does not is
reported.
-/
def checkGroups (set : InstructionSet) (exists? : GroupId → Bool) :
    Except InstructionError Unit :=
  match set.groups.find? (fun group => !exists? group) with
  | some group => .error (.unknownGroup group)
  | none => .ok ()

/-- The next table, if any, comes after `source` and is one of `count` tables. -/
def checkNextTable (set : InstructionSet) (source : TableId) (count : Nat) :
    Except InstructionError Unit :=
  match set.nextTable with
  | none => .ok ()
  | some target =>
      if source.number < target.number ∧ target.number.toNat < count then
        .ok ()
      else
        .error (.invalidGoto source target)

end InstructionSet

end PacketClassifier
