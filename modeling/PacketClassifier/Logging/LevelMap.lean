import PacketClassifier.Logging.Level

/-!
# Levels by target

A target is a part of the program that logs.  A level map gives targets a level
and keeps the order in which they were first named; a target that is named
again keeps its place and gets the new level.
-/

namespace PacketClassifier.Logging

/-- Give a target a level: in its place if it is listed, otherwise at the end. -/
def assign (target : String) (level : Level) :
    List (String × Level) → List (String × Level)
  | [] => [(target, level)]
  | (known, old) :: rest =>
      if known = target then
        (known, level) :: rest
      else
        (known, old) :: assign target level rest

theorem mem_keys_assign {target other : String} {level : Level}
    {list : List (String × Level)} :
    other ∈ (assign target level list).map Prod.fst ↔
      other = target ∨ other ∈ list.map Prod.fst := by
  induction list with
  | nil => simp [assign]
  | cons first rest ih =>
      obtain ⟨known, old⟩ := first
      unfold assign
      split
      · rename_i same
        simp [same]
      · simp only [List.map_cons, List.mem_cons, ih]
        grind

theorem nodup_keys_assign {target : String} {level : Level}
    {list : List (String × Level)} (distinct : (list.map Prod.fst).Nodup) :
    ((assign target level list).map Prod.fst).Nodup := by
  induction list with
  | nil => simp [assign]
  | cons first rest ih =>
      obtain ⟨known, old⟩ := first
      have parts := List.nodup_cons.1 distinct
      unfold assign
      split
      · exact distinct
      · rename_i different
        refine List.nodup_cons.2 ⟨?_, ih parts.2⟩
        intro listed
        rcases mem_keys_assign.1 listed with same | old
        · exact different same
        · exact parts.1 old

/-- Targets with their levels, each target once. -/
structure LevelMap where
  toList : List (String × Level) := []
  distinct : (toList.map Prod.fst).Nodup := by simp
deriving DecidableEq

namespace LevelMap

/-- The map without targets. -/
def empty : LevelMap := {}

instance : Inhabited LevelMap := ⟨empty⟩

/-- The level of a target, if it has one. -/
def get? (map : LevelMap) (target : String) : Option Level :=
  map.toList.lookup target

/-- Give a target a level. -/
def insert (map : LevelMap) (target : String) (level : Level) : LevelMap where
  toList := assign target level map.toList
  distinct := nodup_keys_assign map.distinct

/-- Take the level of a target away. -/
def erase (map : LevelMap) (target : String) : LevelMap where
  toList := map.toList.filter (fun (known, _) => known ≠ target)
  distinct :=
    map.distinct.sublist (List.filter_sublist.map Prod.fst)

/-- Give several targets their levels, one after the other. -/
def insertAll (map : LevelMap) (assignments : List (String × Level)) : LevelMap :=
  assignments.foldl (fun map (target, level) => map.insert target level) map

end LevelMap

end PacketClassifier.Logging
