import PacketClassifier.Instruction.Text
import PacketClassifier.Ledger

/-!
# Changes and refusals

Requests to a matcher are planned first: the plan is a change, or the reason
why there is none.  Carrying a change out is a step of its own, so a request
that is refused has touched nothing.
-/

namespace PacketClassifier

inductive MatcherKind where
  | trie
  | list
deriving DecidableEq, Inhabited

namespace MatcherKind

def all : List MatcherKind := [.trie, .list]

/-- The kind chosen where nothing is said. -/
def preferred : MatcherKind := .trie

def text : MatcherKind → String
  | .trie => "trie"
  | .list => "loop"

/-- The kind of a given name.  Names are taken as they stand. -/
def ofText? (text : String) : Option MatcherKind :=
  all.find? (fun kind => kind.text == text)

/-- The name of a kind as a type member is named. -/
def memberName (kind : MatcherKind) : String :=
  kind.text.capitalize

def description : MatcherKind → String
  | .trie => "Trie algorithm performs the lookup using a patricia trie"
  | .list => "Loop algorithm scans a priority-sorted list of entries"

end MatcherKind

/-- The requests that not every matcher supports. -/
inductive Operation where
  | modify
  | remove
deriving DecidableEq

def Operation.text : Operation → String
  | .modify => "modify"
  | .remove => "remove"

/-- Why a request to change a table was refused. -/
inductive RequestError where
  /-- The new entry overlaps an installed entry of its priority. -/
  | overlap
  /-- The matcher cannot carry out such requests. -/
  | unsupported (kind : MatcherKind) (operation : Operation)
  /-- No more nodes can be numbered. -/
  | arenaFull
  /-- The instructions of the entry do not fit where it is to be installed. -/
  | invalid (cause : InstructionError)
deriving DecidableEq

def RequestError.message : RequestError → String
  | .overlap => "Flow entry overlaps with an installed entry of the same priority"
  | .unsupported kind operation =>
      "The " ++ kind.text ++ " matching algorithm does not support " ++
        operation.text
  | .arenaFull => "Internal error: trie node arena is full"
  | .invalid cause => cause.message

inductive Change where
  | insert (entry : EntryRef)
  /-- Put `new` in the place of `old`, which has the same priority and matches. -/
  | replace (old new : EntryRef)
  | remove (entries : List EntryRef)
  | clear
deriving DecidableEq

/-- The entries that a change names and takes out. -/
def Change.evicted : Change → List EntryRef
  | .insert _ | .clear => []
  | .replace old _ => [old]
  | .remove entries => entries

end PacketClassifier
