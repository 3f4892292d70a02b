import PacketClassifier.Packet

/-!
# Conjunctions of matches

A match set is a conjunction with at most one match per field, listed in field
order and without wildcards.  Sets are compared field by field; a field that
only one of two sets constrains is free in the other.
-/

namespace PacketClassifier

/-- Add a match to a list in field order, in front of the later fields. -/
def insertInOrder (m : Match) : List Match → List Match
  | [] => [m]
  | first :: rest =>
      if m.field.index < first.field.index then
        m :: first :: rest
      else
        first :: insertInOrder m rest

theorem mem_insertInOrder {m other : Match} {list : List Match} :
    other ∈ insertInOrder m list ↔ other = m ∨ other ∈ list := by
  induction list with
  | nil => simp [insertInOrder]
  | cons first rest ih =>
      unfold insertInOrder
      split
      · simp
      · simp only [List.mem_cons, ih]
        grind

/-- A list of matches is in strict field order. -/
def InFieldOrder (list : List Match) : Prop :=
  list.Pairwise (fun left right => left.field.index < right.field.index)

theorem InFieldOrder.insertInOrder {m : Match} {list : List Match}
    (ordered : InFieldOrder list)
    (fresh : ∀ other ∈ list, other.field ≠ m.field) :
    InFieldOrder (insertInOrder m list) := by
  induction list with
  | nil => simp [PacketClassifier.insertInOrder, InFieldOrder]
  | cons first rest ih =>
      have parts := List.pairwise_cons.1 ordered
      unfold PacketClassifier.insertInOrder
      split
      · rename_i before
        refine List.pairwise_cons.2 ⟨?_, ordered⟩
        intro other member
        rcases List.mem_cons.1 member with rfl | later
        · exact before
        · exact Nat.lt_trans before (parts.1 other later)
      · rename_i notBefore
        refine List.pairwise_cons.2 ⟨?_, ih parts.2 ?_⟩
        · intro other member
          rcases mem_insertInOrder.1 member with rfl | later
          · have different : first.field.index ≠ other.field.index :=
              fun same => fresh first (by simp) (Field.index_injective same)
            omega
          · exact parts.1 other later
        · exact fun other member => fresh other (by simp [member])

/-- A conjunction of matches on different fields, in field order. -/
structure MatchSet where
  toList : List Match
  ordered : InFieldOrder toList
  proper : ∀ m ∈ toList, ¬ m.IsWildcard
deriving DecidableEq

namespace MatchSet

/-- The conjunction that constrains nothing. -/
def empty : MatchSet where
  toList := []
  ordered := .nil
  proper := by simp

instance : Inhabited MatchSet := ⟨empty⟩

/-- The match of a set on a field, if it has one. -/
def get? (set : MatchSet) (field : Field) : Option Match :=
  set.toList.find? (fun m => m.field = field)

theorem get?_eq_none_iff {set : MatchSet} {field : Field} :
    set.get? field = none ↔ ∀ m ∈ set.toList, m.field ≠ field := by
  simp [get?]

/-- The number of fields that a set constrains. -/
def size (set : MatchSet) : Nat :=
  set.toList.length

/--
Add a match to a set.  A match on a field that is taken is refused; a wildcard
on a free field constrains nothing and is not stored.
-/
def insert (set : MatchSet) (m : Match) : Except MatchError MatchSet :=
  if free : set.get? m.field = none then
    if wildcard : m.IsWildcard then
      .ok set
    else
      .ok {
        toList := insertInOrder m set.toList
        ordered := set.ordered.insertInOrder (get?_eq_none_iff.1 free)
        proper := by
          intro other member
          rcases mem_insertInOrder.1 member with rfl | old
          · exact wildcard
          · exact set.proper other old }
  else
    .error (.duplicateField m.field)

/-- The conjunction of the matches of a list, added one after the other. -/
def ofList (list : List Match) : Except MatchError MatchSet :=
  list.foldlM insert empty

/-- A packet satisfies every match of a set. -/
def Admits (set : MatchSet) (packet : Packet) : Prop :=
  ∀ m ∈ set.toList, m.Admits packet

instance (set : MatchSet) (packet : Packet) : Decidable (set.Admits packet) :=
  inferInstanceAs (Decidable (∀ m ∈ set.toList, m.Admits packet))

/--
Every field that `wide` constrains is constrained by `narrow`, at least as
tightly.
-/
def IsSubmatch (narrow wide : MatchSet) : Prop :=
  ∀ outer ∈ wide.toList,
    ∃ inner ∈ narrow.get? outer.field, inner.IsSubmatch outer

instance (narrow wide : MatchSet) : Decidable (narrow.IsSubmatch wide) :=
  have (outer : Match) : Decidable
      (∃ inner ∈ narrow.get? outer.field, inner.IsSubmatch outer) :=
    match found : narrow.get? outer.field with
    | none => isFalse (by simp)
    | some inner =>
        decidable_of_iff (inner.IsSubmatch outer) (by simp)
  inferInstanceAs (Decidable (∀ outer ∈ wide.toList, _))

/-- The matches of two sets on a common field intersect, for every such field. -/
def Intersects (left right : MatchSet) : Prop :=
  ∀ m ∈ left.toList, ∀ other ∈ right.get? m.field, m.Intersects other

instance (left right : MatchSet) : Decidable (left.Intersects right) :=
  have (m : Match) : Decidable
      (∀ other ∈ right.get? m.field, m.Intersects other) :=
    match found : right.get? m.field with
    | none => isTrue (by simp)
    | some other => decidable_of_iff (m.Intersects other) (by simp)
  inferInstanceAs (Decidable (∀ m ∈ left.toList, _))

end MatchSet

end PacketClassifier
