import PacketClassifier.Match.Text
import PacketClassifier.Trie.Basic

/-!
# Checking a trie

A check goes through every chain from the root and makes sure of the
owners, the caches, the order of entries and the place of each entry: the stems
on the way from the root to its node must be implied by its matches, and every
match must be among them.  It also makes sure that every node is reached once
and that the entries are as many as are accounted for.
-/

namespace PacketClassifier

inductive TrieFlaw where
  | malformedRootEntries
  | cycle
  | missingNode (id : NodeId)
  | wrongOwner (stem : Match) (found expected : Option NodeId)
  | unsortedEntries (stem : Match)
  | misplacedEntry (stem : Match) (entry : EntryRef)
  | wrongCache (stem : Match) (found expected : Option UInt32)
  | unreachableNodes (count : Nat)
  | wrongSize (stored accounted : Nat)
deriving DecidableEq

namespace TrieFlaw

/-- A value that may be missing, as a structure shows it. -/
def optionText {α : Type} (write : α → String) : Option α → String
  | none => "None"
  | some value => "Some(" ++ write value ++ ")"

/-- A flaw in words; `describe` writes the entries it names. -/
def message (describe : EntryRef → String) : TrieFlaw → String
  | .malformedRootEntries => "malformed list of entries without matches"
  | .cycle => "cycle between nodes"
  | .missingNode id => "no node " ++ id.structuralText
  | .wrongOwner stem found expected =>
      "node " ++ stem.text ++ " has parent " ++
        optionText NodeId.structuralText found ++ ", not " ++
        optionText NodeId.structuralText expected
  | .unsortedEntries stem =>
      "entries of node " ++ stem.text ++ " are not sorted"
  | .misplacedEntry stem entry =>
      "entry " ++ describe entry ++ " does not belong under node " ++ stem.text
  | .wrongCache stem found expected =>
      "node " ++ stem.text ++ " caches priority " ++
        optionText (fun priority => Text.decimal priority.toNat) found ++
        ", expected " ++
        optionText (fun priority => Text.decimal priority.toNat) expected
  | .unreachableNodes count => Text.decimal count ++ " nodes unreachable"
  | .wrongSize stored accounted =>
      Text.decimal stored ++ " entries stored, " ++ Text.decimal accounted ++
        " accounted"

end TrieFlaw

namespace Trie

/-- The higher of two priorities, either of which may be missing. -/
def higher : Option UInt32 → Option UInt32 → Option UInt32
  | some left, some right => some (if left < right then right else left)
  | none, right => right
  | left, none => left

/-- The stems of a path are the matches of an entry, or wider ones. -/
def BelongsUnder (entry : EntryRef) (path : List Match) : Prop :=
  (∀ m ∈ entry.rule.matchSet.toList, m ∈ path) ∧
    ∀ stem ∈ path,
      ∃ own ∈ entry.rule.matchSet.get? stem.field, own.IsSubmatch stem

instance (entry : EntryRef) (path : List Match) :
    Decidable (BelongsUnder entry path) :=
  inferInstanceAs (Decidable (_ ∧ ∀ stem ∈ path,
    ∃ own ∈ entry.rule.matchSet.get? stem.field, own.IsSubmatch stem))

/-- What has been found in the chains gone through so far. -/
structure Census where
  /-- The highest priority in the chain at hand. -/
  highest : Option UInt32
  /-- The number of entries, in all chains. -/
  stored : Nat
  /-- The number of nodes, in all chains. -/
  reached : Nat
deriving DecidableEq

/-- Refuse with a flaw unless a condition holds. -/
def require (condition : Bool) (flaw : TrieFlaw) : Except TrieFlaw Unit :=
  if condition then .ok () else .error flaw

/--
Check a chain from a node on.  `path` holds the stems on the way to the chain.
A path cannot be longer than there are nodes, so fuel for one node more than
there are is enough to tell a cycle.
-/
def checkFrom (trie : Trie) : (fuel : Nat) → (cursor owner : Option NodeId) →
    (path : List Match) → (stored reached : Nat) → Except TrieFlaw Census
  | _, none, _, _, stored, reached => .ok ⟨none, stored, reached⟩
  | 0, some _, _, _, _, _ => .error .cycle
  | fuel + 1, some id, owner, path, stored, reached =>
      match trie.node? id with
      | none => .error (.missingNode id)
      | some node => do
          require (reached + 1 ≤ trie.nodes.size) .cycle
          require (node.owner = owner) (.wrongOwner node.stem node.owner owner)
          let path' := path ++ [node.stem]
          let below ← checkFrom trie fuel node.inner (some id) path' stored
            (reached + 1)
          require (sortedByPriority node.entries) (.unsortedEntries node.stem)
          match node.entries.find? (fun entry => ¬ BelongsUnder entry path') with
          | some entry => throw (.misplacedEntry node.stem entry)
          | none =>
              let here := node.entries.head?.map (·.rule.priority)
              let expected := higher here below.highest
              require (node.highest = expected)
                (.wrongCache node.stem node.highest expected)
              let rest ← checkFrom trie fuel node.next owner path
                (below.stored + node.entries.length) below.reached
              return { rest with highest := higher expected rest.highest }

/-- Check a trie; the first flaw found is reported. -/
def check (trie : Trie) : Except TrieFlaw Unit := do
  require
    (sortedByPriority trie.rootEntries &&
      trie.rootEntries.all (·.rule.matchSet.toList.isEmpty))
    .malformedRootEntries
  let census ← checkFrom trie (trie.nodes.size + 1) trie.root none []
    trie.rootEntries.length 0
  require (census.reached = trie.nodes.size)
    (.unreachableNodes (trie.nodes.size - census.reached))
  require (census.stored = trie.size) (.wrongSize census.stored trie.size)

end Trie

end PacketClassifier
