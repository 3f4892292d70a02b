import PacketClassifier.Identifier

/-!
# Sets of groups

The groups that exist, in increasing order of their numbers.  Only their
existence matters to the classifier.
-/

namespace PacketClassifier

/-- The groups that exist, in increasing order. -/
structure GroupSet where
  toList : List GroupId := []
deriving DecidableEq, Inhabited

namespace GroupSet

def empty : GroupSet := {}

def contains (groups : GroupSet) (group : GroupId) : Bool :=
  groups.toList.contains group

/-- Add a group to a list in increasing order, unless it is in the list. -/
def insertInOrder (group : GroupId) : List GroupId → List GroupId
  | [] => [group]
  | first :: rest =>
      if group.number < first.number then
        group :: first :: rest
      else if group = first then
        first :: rest
      else
        first :: insertInOrder group rest

def insert (groups : GroupSet) (group : GroupId) : GroupSet :=
  ⟨insertInOrder group groups.toList⟩

def erase (groups : GroupSet) (group : GroupId) : GroupSet :=
  ⟨groups.toList.filter (· ≠ group)⟩

def size (groups : GroupSet) : Nat :=
  groups.toList.length

/-- A set with the numbers of its groups. -/
def structuralText (groups : GroupSet) : String :=
  "\x7b" ++ Text.joined ", " (groups.toList.map GroupId.structuralText) ++ "\x7d"

theorem mem_insertInOrder {group other : GroupId} {list : List GroupId} :
    other ∈ insertInOrder group list ↔ other = group ∨ other ∈ list := by
  induction list with
  | nil => simp [insertInOrder]
  | cons first rest ih =>
      unfold insertInOrder
      split
      · simp
      · split
        · rename_i same
          simp [same]
        · simp only [List.mem_cons, ih]
          grind

@[simp]
theorem contains_insert (groups : GroupSet) (group other : GroupId) :
    (groups.insert group).contains other =
      (other = group || groups.contains other) := by
  by_cases same : other = group <;>
    simp [contains, insert, mem_insertInOrder, same]

@[simp]
theorem contains_erase (groups : GroupSet) (group other : GroupId) :
    (groups.erase group).contains other =
      (other ≠ group && groups.contains other) := by
  by_cases same : other = group <;> simp [contains, erase, same]

end GroupSet

end PacketClassifier
