import PacketClassifier.Entry.Text
import PacketClassifier.Trie.Insert
import PacketClassifier.Trie.Search
import PacketClassifier.Trie.Text
import PacketClassifier.Trie.Walk

/-!
# Matchers

A matcher holds the installed entries and answers which of them a packet hits.
There are two: a list by priority, and a trie that only grows.  Requests are
planned on a matcher without changing it, and the change planned is applied.
-/

namespace PacketClassifier

namespace Trie

/-- The largest number of nodes that can be numbered. -/
def maxNodes : Nat := 4294967295

/--
Plan to install an entry.  An entry of the same priority and conjunction gives
way to it.  A split adds two nodes for a field, and every later field one.
-/
def planAdd (trie : Trie) (entry : EntryRef) (checkOverlap : Bool) :
    Except RequestError Change :=
  if checkOverlap ∧ ∃ other ∈ trie.walk .overlapping entry.rule.matchSet,
      other.rule.Overlaps entry.rule true true then
    .error .overlap
  else
    match (trie.walk .enclosing entry.rule.matchSet).find?
        (fun other => other.rule.SameAs entry.rule false) with
    | some old => .ok (.replace old entry)
    | none =>
        if maxNodes < trie.nodes.size + entry.rule.matchSet.size + 1 then
          .error .arenaFull
        else
          .ok (.insert entry)

/-- Carry out a change.  Nothing can be taken out of a trie but everything. -/
def apply (trie : Trie) : Change → Trie
  | .insert entry => trie.insert entry
  | .replace old new => trie.replace old new
  | .remove _ => trie
  | .clear => empty

end Trie

/-- What to take out of a matcher. -/
inductive RemovalTarget where
  /-- One entry, if it is installed. -/
  | only (entry : EntryRef)
  /-- Every entry that a query selects. -/
  | selected (query : Query)

/-- A matcher of either kind. -/
inductive Matcher where
  | trie (trie : Trie)
  | list (list : PriorityList)
deriving DecidableEq

namespace Matcher

/-- A matcher of a given kind, without entries. -/
def empty : MatcherKind → Matcher
  | .trie => .trie Trie.empty
  | .list => .list PriorityList.empty

instance : Inhabited Matcher := ⟨empty .trie⟩

def kind : Matcher → MatcherKind
  | .trie _ => .trie
  | .list _ => .list

def size : Matcher → Nat
  | .trie tree => tree.size
  | .list sequence => sequence.entries.length

def entries : Matcher → List EntryRef
  | .trie tree => tree.entries
  | .list sequence => sequence.entries

/-- Entries can be modified and removed. -/
def supportsRemoval : Matcher → Bool
  | .trie _ => false
  | .list _ => true

def selected (matcher : Matcher) (ledger : Ledger) (query : Query) :
    List EntryRef :=
  matcher.entries.filter (fun ref => query.Selects (ledger.entry ref))

def planAdd (matcher : Matcher) (entry : EntryRef) (checkOverlap : Bool) :
    Except RequestError Change :=
  match matcher with
  | .trie tree => tree.planAdd entry checkOverlap
  | .list sequence => sequence.planAdd entry checkOverlap

/-- The entries whose instructions a modification is to replace. -/
def planModify (matcher : Matcher) (ledger : Ledger) (template : Entry)
    (strictness : Strictness) : Except RequestError (List EntryRef) :=
  match matcher with
  | .trie _ => .error (.unsupported .trie .modify)
  | .list _ => .ok (matcher.selected ledger { template, strictness })

def planRemove (matcher : Matcher) (ledger : Ledger) (target : RemovalTarget) :
    Except RequestError Change :=
  match matcher, target with
  | .trie _, _ => .error (.unsupported .trie .remove)
  | .list sequence, .only entry => .ok (sequence.planRemoveEntry entry)
  | .list _, .selected query => .ok (.remove (matcher.selected ledger query))

def apply (matcher : Matcher) (change : Change) : Matcher :=
  match matcher with
  | .trie tree => .trie (tree.apply change)
  | .list sequence => .list (sequence.apply change)

/-- The entry that a packet hits: of those it satisfies, the one of highest priority. -/
def find? (matcher : Matcher) (packet : Packet) : Option EntryRef :=
  match matcher with
  | .trie tree => tree.find? packet
  | .list sequence => sequence.find? packet

/-- The entries with an action that sends packets to `group`. -/
def usersOf (matcher : Matcher) (ledger : Ledger) (group : GroupId) :
    List EntryRef :=
  matcher.entries.filter (fun ref => (ledger.state ref.id).instructions.HasGroup group)

/-- A matcher as written in dumps, with its entries as they are now. -/
def text (matcher : Matcher) (ledger : Ledger) : String :=
  let describe := fun ref => (ledger.entry ref).text
  match matcher with
  | .trie tree => tree.text describe
  | .list sequence =>
      "Loop (" ++ Text.decimal sequence.entries.length ++ " entries):\n" ++
        String.join (sequence.entries.map (fun ref => "  " ++ describe ref ++ "\n"))

end Matcher

end PacketClassifier
