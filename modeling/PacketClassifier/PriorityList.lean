import PacketClassifier.Bisection
import PacketClassifier.Change

/-!
# Lists by priority

Entries in descending priority, and in the order of installation where the
priority is the same.  A list of entries is also the simplest matcher: every
request is answered by going through the list.
-/

namespace PacketClassifier

/-- Put an entry behind the entries of its priority or higher. -/
def insertByPriority (entries : List EntryRef) (entry : EntryRef) :
    List EntryRef :=
  let position := Bisection.runEnd
    (fun position => entries[position]?.any
      (fun other => entry.rule.priority ≤ other.rule.priority))
    entries.length
  entries.take position ++ entry :: entries.drop position

/-- No entry has a lower priority than the one behind it. -/
def sortedByPriority : List EntryRef → Bool
  | first :: second :: rest =>
      second.rule.priority ≤ first.rule.priority &&
        sortedByPriority (second :: rest)
  | _ => true

/-- A matcher that keeps its entries in a list. -/
structure PriorityList where
  entries : List EntryRef := []
deriving DecidableEq, Inhabited

namespace PriorityList

def empty : PriorityList := {}

/--
Plan to install an entry.  An entry of the same priority and conjunction gives
way to it.
-/
def planAdd (list : PriorityList) (entry : EntryRef) (checkOverlap : Bool) :
    Except RequestError Change :=
  if checkOverlap ∧
      ∃ other ∈ list.entries, other.rule.Overlaps entry.rule true true then
    .error .overlap
  else
    match list.entries.find? (fun other => other.rule.SameAs entry.rule false) with
    | some old => .ok (.replace old entry)
    | none => .ok (.insert entry)

/-- Plan to take out one entry, if it is in the list. -/
def planRemoveEntry (list : PriorityList) (entry : EntryRef) : Change :=
  .remove (if entry ∈ list.entries then [entry] else [])

/-- Put an entry in the place of the first occurrence of another. -/
def replaceFirst (old new : EntryRef) : List EntryRef → List EntryRef
  | [] => []
  | first :: rest =>
      if first = old then
        new :: rest
      else
        first :: replaceFirst old new rest

def apply (list : PriorityList) : Change → PriorityList
  | .insert entry => ⟨insertByPriority list.entries entry⟩
  | .replace old new => ⟨replaceFirst old new list.entries⟩
  | .remove entries => ⟨list.entries.filter (· ∉ entries)⟩
  | .clear => empty

/-- The first entry whose conjunction a packet satisfies. -/
def find? (list : PriorityList) (packet : Packet) : Option EntryRef :=
  list.entries.find? (fun entry => entry.rule.matchSet.Admits packet)

end PriorityList

end PacketClassifier
