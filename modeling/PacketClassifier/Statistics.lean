import PacketClassifier.Matcher

/-!
# Statistics

A statistics request is answered entry by entry, or with the sums over the
entries it selects.
-/

namespace PacketClassifier

structure FlowReply where
  entry : Entry
  counters : Counters
deriving DecidableEq, Inhabited

namespace FlowReply

def of (entry : Entry) : FlowReply where
  entry
  counters := entry.counters

/-- A reply about an entry installed `age` milliseconds ago. -/
def text (reply : FlowReply) (age : Nat) : String :=
  reply.entry.text ++ " " ++ reply.counters.text ++ " age=" ++
    Text.decimal (age / 1000) ++ "s"

end FlowReply

/-- A number of entries, and the sum of their counters. -/
structure Aggregate where
  flows : Nat := 0
  counters : Counters := {}
deriving DecidableEq, Inhabited

namespace Aggregate

def add (left right : Aggregate) : Aggregate where
  flows := left.flows + right.flows
  counters := left.counters + right.counters

instance : Add Aggregate := ⟨add⟩

def ofEntries (entries : List Entry) : Aggregate :=
  entries.foldl (fun sums entry => sums + ⟨1, entry.counters⟩) {}

def text (sums : Aggregate) : String :=
  "flows=" ++ Text.decimal sums.flows ++ " " ++ sums.counters.text

end Aggregate

namespace Matcher

def flowStats (matcher : Matcher) (ledger : Ledger) (query : Query) :
    List FlowReply :=
  (matcher.selected ledger query).map (fun ref => .of (ledger.entry ref))

def aggregate (matcher : Matcher) (ledger : Ledger) (query : Query) : Aggregate :=
  .ofEntries ((matcher.selected ledger query).map ledger.entry)

end Matcher

end PacketClassifier
