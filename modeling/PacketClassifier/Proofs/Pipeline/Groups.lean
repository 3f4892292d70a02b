import Mathlib.Data.List.Basic
import PacketClassifier.Pipeline.Group
import PacketClassifier.Proofs.Pipeline.Removal

/-!
# Groups that go with their users

A group that is removed takes the entries with it that send packets to it.  The
removal goes by a filter, and one group number means no filter there: a group of that
number takes every entry of the tables that can give up entries.
-/

namespace PacketClassifier

variable {pipeline after : Pipeline} {group : GroupId} {count : Nat}

/-- The query of a removal selects the users of the group, or everything. -/
theorem Pipeline.usersQuery_selects_iff {entry : Entry} :
    (usersQuery group).Selects entry ↔
      group = GroupId.any ∨ entry.instructions.HasGroup group := by
  have contained : entry.toRule.ContainedIn {} false true := by
    refine ⟨fun wanted => absurd wanted (by decide), fun _ => ?_, ?_⟩
    · simp [Rule.CookieMatches]
    · intro outer member
      exact absurd member List.not_mem_nil
  constructor
  · rintro ⟨-, -, passes⟩
    exact passes
  · intro passes
    exact ⟨contained, Or.inl rfl, passes⟩

namespace Pipeline

/-- The entry sends packets to the group by one of its actions. -/
def Uses (pipeline : Pipeline) (group : GroupId) (ref : EntryRef) : Prop :=
  (pipeline.ledger.state ref.id).instructions.HasGroup group

instance (pipeline : Pipeline) (group : GroupId) (ref : EntryRef) :
    Decidable (pipeline.Uses group ref) :=
  inferInstanceAs (Decidable (InstructionSet.HasGroup _ _))

/-- Every entry of every table, in order. -/
def installed (pipeline : Pipeline) : List EntryRef :=
  pipeline.tables.flatMap (·.matcher.entries)

/-- The group has gone, and `count` users with it, and nothing else. -/
structure LosesGroup (pipeline after : Pipeline) (group : GroupId)
    (count : Nat) : Prop where
  groups : ∀ other,
    after.hasGroup other = (decide (other ≠ group) && pipeline.hasGroup other)
  contents : after.tables.map Table.contents =
    pipeline.tables.map (fun table =>
      (table.id, table.matcher.entries.filter (¬ pipeline.Uses group ·)))
  count : count = (pipeline.installed.filter (pipeline.Uses group ·)).length

/-- What a removal takes: the users of the group, or everything under the filter. -/
theorem selected_usersQuery (table : Table) :
    table.matcher.selected pipeline.ledger (usersQuery group) =
      table.matcher.entries.filter
        (fun ref => group = GroupId.any ∨ pipeline.Uses group ref) := by
  apply List.filter_congr
  intro ref _
  rw [decide_eq_decide, usersQuery_selects_iff]
  rfl

theorem without_usersQuery (table : Table) :
    table.without pipeline.ledger (usersQuery group) =
      (table.id, table.matcher.entries.filter
        (fun ref => ¬ (group = GroupId.any ∨ pipeline.Uses group ref))) := by
  unfold Table.without
  congr 1
  apply List.filter_congr
  intro ref _
  rw [decide_eq_decide, usersQuery_selects_iff]
  rfl

/-- A removal that succeeds leaves no user in a table that cannot give up entries. -/
theorem unused_of_holder?_eq_none (free : pipeline.holder? group = none)
    {table : Table} (member : table ∈ pipeline.tables)
    (unable : ¬ table.matcher.supportsRemoval = true) :
    ∀ ref ∈ table.matcher.entries, ¬ pipeline.Uses group ref := by
  have idle := List.find?_eq_none.mp free table member
  simp only [unable, Bool.not_false, Bool.true_and, Bool.not_eq_true',
    Bool.not_eq_false, List.isEmpty_iff] at idle
  exact fun ref listed uses =>
    List.filter_eq_nil_iff.mp idle ref listed (decide_eq_true uses)

/--
A removal that succeeds takes out the group.  From the tables that can give up entries
it takes those that the filter lets pass, and it counts them; other tables have no
users.
-/
theorem removeGroup_spec
    (removed : pipeline.removeGroup group = (.ok count, after)) :
    pipeline.holder? group = none ∧
      after.groups = pipeline.groups.erase group ∧
      after.tables.map Table.contents = pipeline.tables.map (fun table =>
        if table.matcher.supportsRemoval then
          table.without pipeline.ledger (usersQuery group)
        else
          table.contents) ∧
      count = (pipeline.tables.flatMap (fun table =>
        if table.matcher.supportsRemoval then
          table.matcher.selected pipeline.ledger (usersQuery group)
        else [])).length := by
  unfold removeGroup at removed
  split at removed
  · exact absurd (congrArg Prod.fst removed) (by simp)
  · split at removed
    · exact absurd (congrArg Prod.fst removed) (by simp)
    · rename_i free
      have able : ∀ table ∈ pipeline.tables,
          (fun table : Table => table.matcher.supportsRemoval) table = true →
            table.matcher.supportsRemoval = true := fun _ _ able => able
      obtain ⟨left, ledger, swept, contents, -⟩ :=
        onTables_remove able pipeline.ledger (usersQuery group) .groupDelete
      simp only [onEach, swept] at removed
      obtain ⟨counted, rfl⟩ := Prod.mk.inj removed
      exact ⟨free, rfl, contents, (Except.ok.inj counted).symm⟩

/-! ## The law and where it fails -/

/-- The group does not stand for any, or all that can be given up uses it. -/
def OnlyUsersPass (pipeline : Pipeline) (group : GroupId) : Prop :=
  group = GroupId.any → ∀ table ∈ pipeline.tables,
    table.matcher.supportsRemoval = true →
      ∀ ref ∈ table.matcher.entries, pipeline.Uses group ref

/-- Where only users pass, the users are what is taken from a table. -/
theorem OnlyUsersPass.filter_eq (pure : pipeline.OnlyUsersPass group)
    {table : Table} (member : table ∈ pipeline.tables)
    (able : table.matcher.supportsRemoval = true) (keep : Bool → Bool) :
    table.matcher.entries.filter (fun ref =>
        keep (group = GroupId.any ∨ pipeline.Uses group ref)) =
      table.matcher.entries.filter (fun ref =>
        keep (pipeline.Uses group ref)) := by
  apply List.filter_congr
  intro ref listed
  congr 1
  rw [decide_eq_decide]
  constructor
  · rintro (wild | uses)
    · exact pure wild table member able ref listed
    · exact uses
  · exact Or.inr

theorem removeGroup_losesGroup
    (removed : pipeline.removeGroup group = (.ok count, after))
    (pure : pipeline.OnlyUsersPass group) :
    pipeline.LosesGroup after group count := by
  obtain ⟨free, groups, contents, counted⟩ := removeGroup_spec removed
  constructor
  · intro other
    rw [hasGroup, groups, GroupSet.contains_erase, hasGroup]
  · rw [contents]
    apply List.map_congr_left
    intro table member
    by_cases able : table.matcher.supportsRemoval = true
    · rw [if_pos able, without_usersQuery]
      have same := pure.filter_eq member able (fun passes => !passes)
      simpa using same
    · rw [if_neg able, Table.contents]
      congr 1
      symm
      rw [List.filter_eq_self]
      intro ref listed
      exact decide_eq_true (unused_of_holder?_eq_none free member able ref listed)
  · rw [counted, installed, List.filter_flatMap]
    congr 1
    apply List.flatMap_congr
    intro table member
    by_cases able : table.matcher.supportsRemoval = true
    · rw [if_pos able, selected_usersQuery]
      have same := pure.filter_eq member able id
      simpa using same
    · rw [if_neg able]
      symm
      rw [List.filter_eq_nil_iff]
      intro ref listed uses
      exact unused_of_holder?_eq_none free member able ref listed
        (of_decide_eq_true uses)

theorem onlyUsersPass_of_losesGroup
    (removed : pipeline.removeGroup group = (.ok count, after))
    (loses : pipeline.LosesGroup after group count) :
    pipeline.OnlyUsersPass group := by
  rintro rfl table member able ref listed
  obtain ⟨-, -, contents, -⟩ := removeGroup_spec removed
  have same := List.map_inj_left.mp (contents.symm.trans loses.contents) table
    member
  rw [if_pos able, without_usersQuery] at same
  have kept : table.matcher.entries.filter (fun ref =>
        ¬ (GroupId.any = GroupId.any ∨ pipeline.Uses GroupId.any ref)) =
      table.matcher.entries.filter (¬ pipeline.Uses GroupId.any ·) :=
    congrArg Prod.snd same
  apply Decidable.byContradiction
  intro unused
  have inLaw : ref ∈ table.matcher.entries.filter
      (¬ pipeline.Uses GroupId.any ·) :=
    List.mem_filter.mpr ⟨listed, decide_eq_true unused⟩
  rw [← kept, List.mem_filter] at inLaw
  exact of_decide_eq_true inLaw.2 (Or.inl rfl)

/-- Two tables that can give up entries. -/
def twoLists : Pipeline where
  name := "p"
  tables := emptyTables [.list, .list]

/-- A group, an entry that sends packets to it, and an entry that does not. -/
def withUser (group : GroupId) : Pipeline :=
  let user : Entry :=
    { instructions := { applied := some [.group group] } }
  (((twoLists.addGroup group).2.add ⟨0⟩ user false false).2.add ⟨1⟩ {}
    false false).2

/--
A removal that succeeds takes out no other group.  It takes the users of the group and
nothing else exactly if the group is not the one that stands for any, or if there is
nothing but users where entries can be given up; for that group it takes every entry
there.
-/
theorem removeGroup_exact
    (removed : pipeline.removeGroup group = (.ok count, after)) :
    (∀ other, after.hasGroup other =
      (decide (other ≠ group) && pipeline.hasGroup other)) ∧
      (pipeline.LosesGroup after group count ↔ pipeline.OnlyUsersPass group) ∧
      (group = GroupId.any →
        after.tables.map Table.contents = pipeline.tables.map (fun table =>
          (table.id,
            if table.matcher.supportsRemoval then [] else table.matcher.entries))) := by
  obtain ⟨-, groups, contents, -⟩ := removeGroup_spec removed
  refine ⟨?_, ⟨onlyUsersPass_of_losesGroup removed,
    removeGroup_losesGroup removed⟩, ?_⟩
  · intro other
    rw [hasGroup, groups, GroupSet.contains_erase, hasGroup]
  · rintro rfl
    rw [contents]
    apply List.map_congr_left
    intro table member
    by_cases able : table.matcher.supportsRemoval = true
    · simp [able, without_usersQuery]
    · rw [if_neg able, if_neg able, Table.contents]

/-- A group of an ordinary number goes with its only user. -/
theorem withUser_removeGroup_seven :
    (withUser ⟨7⟩).removeGroup ⟨7⟩ =
        (.ok 1, ((withUser ⟨7⟩).removeGroup ⟨7⟩).2) ∧
      (withUser ⟨7⟩).LosesGroup ((withUser ⟨7⟩).removeGroup ⟨7⟩).2 ⟨7⟩ 1 := by
  have removed : (withUser ⟨7⟩).removeGroup ⟨7⟩ =
      (.ok 1, ((withUser ⟨7⟩).removeGroup ⟨7⟩).2) := rfl
  have ordinary : (withUser ⟨7⟩).OnlyUsersPass ⟨7⟩ :=
    fun wild => absurd wild (by decide)
  exact ⟨removed, (removeGroup_exact removed).2.1.mpr ordinary⟩

/-- The group of the reserved number takes an entry with it that does not use it. -/
theorem withUser_removeGroup_any :
    ofConfig { name := "p", tables := [.list, .list] } GroupSet.empty =
        .ok twoLists ∧
      (twoLists.addGroup GroupId.any).1 = .ok () ∧
      (withUser GroupId.any).tables.map (·.count) = [1, 1] ∧
      ((withUser GroupId.any).removeGroup GroupId.any).1 = .ok 2 ∧
      ¬ (withUser GroupId.any).LosesGroup
        ((withUser GroupId.any).removeGroup GroupId.any).2 GroupId.any 2 := by
  refine ⟨rfl, rfl, rfl, rfl, ?_⟩
  intro loses
  have counted := loses.count
  revert counted
  decide

end Pipeline

end PacketClassifier
