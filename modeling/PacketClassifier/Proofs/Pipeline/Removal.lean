import PacketClassifier.Pipeline.Request

/-!
# Removals from tables

A removal takes the selected entries out of a table, counts them, and touches nothing
else; the ledger gains notices only.  So a removal from several tables selects in each
of them what it would have selected at the start.
-/

namespace PacketClassifier

variable {query : Query} {reason : RemovalReason} {table : Table}
  {ledger other : Ledger}

/-! ## Ledgers that know the same -/

/-- Two ledgers hold the same states; they may hold different notices. -/
def Ledger.Agrees (ledger other : Ledger) : Prop :=
  ∀ id, ledger.state id = other.state id

theorem Ledger.Agrees.entry (agrees : ledger.Agrees other) (ref : EntryRef) :
    ledger.entry ref = other.entry ref := by
  rw [Ledger.entry, Ledger.entry, agrees ref.id]

theorem Ledger.agrees_dismissAll (ledger : Ledger) (reason : RemovalReason)
    (gone : List EntryRef) : (ledger.dismissAll reason gone).Agrees ledger :=
  fun id => state_dismissAll ledger reason gone id

theorem Matcher.selected_congr (agrees : ledger.Agrees other)
    (matcher : Matcher) (query : Query) :
    matcher.selected ledger query = matcher.selected other query := by
  unfold Matcher.selected
  apply List.filter_congr
  intro ref _
  rw [agrees.entry]

/-! ## One table -/

/-- The number of a table with its entries. -/
def Table.contents (table : Table) : TableId × List EntryRef :=
  (table.id, table.matcher.entries)

/-- The contents of a table without the entries that a query selects. -/
def Table.without (table : Table) (ledger : Ledger) (query : Query) :
    TableId × List EntryRef :=
  (table.id,
    table.matcher.entries.filter (fun ref => ¬ query.Selects (ledger.entry ref)))

theorem Table.without_congr (agrees : ledger.Agrees other) (table : Table)
    (query : Query) : table.without ledger query = table.without other query := by
  unfold Table.without
  congr 1
  apply List.filter_congr
  intro ref _
  rw [agrees.entry]

/-- To leave out what was picked is to keep what was not. -/
theorem filter_not_mem_filter {α : Type} [DecidableEq α] (list : List α)
    (picked : α → Prop) [DecidablePred picked] :
    list.filter (fun item => item ∉ list.filter (fun other => picked other)) =
      list.filter (fun item => ¬ picked item) := by
  apply List.filter_congr
  intro item member
  simp [List.mem_filter, member]

/-- A removal from a table that can give up entries takes the selected ones out. -/
theorem Table.remove_selected (able : table.matcher.supportsRemoval = true)
    (ledger : Ledger) (query : Query) (reason : RemovalReason) :
    ∃ left after,
      table.remove ledger (.selected query) reason =
        .ok ((table.matcher.selected ledger query).length, left, after) ∧
      left.contents = table.without ledger query ∧ after.Agrees ledger := by
  rcases table with ⟨id, matcher, count⟩
  cases matcher with
  | trie tree => exact absurd able (by simp [Matcher.supportsRemoval])
  | list sequence =>
      simp only [Table.remove, Matcher.planRemove, bind, Except.bind]
      split
      · rename_i none
        have untouched : (Matcher.list sequence).selected ledger query = [] :=
          List.isEmpty_iff.mp none
        refine ⟨_, _, by rw [untouched]; rfl, ?_, fun _ => rfl⟩
        unfold Table.contents Table.without
        congr 1
        symm
        rw [List.filter_eq_self]
        intro ref member
        have unselected := List.filter_eq_nil_iff.mp untouched ref member
        simpa using unselected
      · refine ⟨_, _, rfl, ?_, Ledger.agrees_dismissAll _ _ _⟩
        unfold Table.contents Table.without
        congr 1
        exact filter_not_mem_filter sequence.entries
          (fun ref => query.Selects (ledger.entry ref))

/-! ## Several tables -/

/--
A removal from chosen tables takes the entries that are selected at the start out of
each, and counts them all.
-/
theorem Pipeline.onTables_remove {chosen : Table → Bool} {tables : List Table}
    (able : ∀ table ∈ tables, chosen table = true →
      table.matcher.supportsRemoval = true)
    (ledger : Ledger) (query : Query) (reason : RemovalReason) :
    ∃ left after,
      onTables chosen
          (fun table ledger => table.remove ledger (.selected query) reason)
          tables ledger =
        (.ok (tables.flatMap (fun table =>
          if chosen table then table.matcher.selected ledger query
          else [])).length, left, after) ∧
      left.map Table.contents = tables.map (fun table =>
        if chosen table then table.without ledger query else table.contents) ∧
      after.Agrees ledger := by
  induction tables generalizing ledger with
  | nil => exact ⟨[], ledger, rfl, rfl, fun _ => rfl⟩
  | cons table rest ih =>
      have restAble := fun other member =>
        able other (List.mem_cons_of_mem table member)
      rw [onTables]
      by_cases picked : chosen table = true
      · obtain ⟨left, between, removed, emptied, kept⟩ :=
          Table.remove_selected (able table List.mem_cons_self picked) ledger
            query reason
        obtain ⟨others, after, removedRest, emptiedRest, keptRest⟩ :=
          ih restAble between
        simp only [Matcher.selected_congr kept] at removedRest
        simp only [Table.without_congr kept] at emptiedRest
        refine ⟨left :: others, after, ?_, ?_, ?_⟩
        · rw [if_pos picked, removed, List.flatMap_cons, List.length_append,
            if_pos picked]
          simp only [removedRest, Except.map]
        · rw [List.map_cons, List.map_cons, emptied, emptiedRest, if_pos picked]
        · intro id
          rw [keptRest id, kept id]
      · obtain ⟨others, after, removedRest, emptiedRest, keptRest⟩ :=
          ih restAble ledger
        refine ⟨table :: others, after, ?_, ?_, keptRest⟩
        · rw [if_neg picked, removedRest, List.flatMap_cons, if_neg picked,
            List.nil_append]
        · rw [List.map_cons, List.map_cons, emptiedRest, if_neg picked]

end PacketClassifier
