import Mathlib.Data.List.Find
import PacketClassifier.Proofs.MatcherRuns

/-!
# First come, first served

In a list by priority the entries of each priority stand in the order in which they were
installed, and one that takes the place of another has the turn of that.  Since a sorted list
is determined by its entries of each priority, the list is what a stable sort makes of the
installed entries, the first to be installed first.  A packet therefore hits the earliest of
the entries of the highest priority that it satisfies.
-/

namespace PacketClassifier

variable {entries left right installed : List EntryRef} {entry best : EntryRef}
  {priority : UInt32} {packet : Packet} {change : Change}

/-! ## The entries of a priority -/

/-- The entries of a priority, in the order of the list. -/
def ofPriority (priority : UInt32) (entries : List EntryRef) : List EntryRef :=
  entries.filter (·.rule.priority = priority)

theorem mem_ofPriority :
    entry ∈ ofPriority priority entries ↔
      entry ∈ entries ∧ entry.rule.priority = priority := by
  simp [ofPriority]

theorem ofPriority_cons_of_eq (own : entry.rule.priority = priority) :
    ofPriority priority (entry :: entries) = entry :: ofPriority priority entries :=
  List.filter_cons_of_pos (by simpa using own)

theorem ofPriority_cons_of_ne (other : entry.rule.priority ≠ priority) :
    ofPriority priority (entry :: entries) = ofPriority priority entries :=
  List.filter_cons_of_neg (by simpa using other)

/-- What is found first in a list is found first among the entries of its priority. -/
theorem find?_ofPriority {holds : EntryRef → Bool}
    (found : entries.find? holds = some best) :
    (ofPriority best.rule.priority entries).find? holds = some best := by
  obtain ⟨satisfied, before, behind, split, earlier⟩ :=
    List.find?_eq_some_iff_append.mp found
  rw [ofPriority, List.find?_filter]
  refine List.find?_eq_some_iff_append.mpr
    ⟨by simpa using satisfied, before, behind, split, fun entry member => ?_⟩
  have rejected : holds entry = false := by simpa using earlier entry member
  simp [rejected]

theorem mem_iff_of_ofPriority_eq
    (same : ∀ priority, ofPriority priority left = ofPriority priority right) :
    entry ∈ left ↔ entry ∈ right := by
  have own : ∀ entries, entry ∈ ofPriority entry.rule.priority entries ↔ entry ∈ entries :=
    fun entries => mem_ofPriority.trans (and_iff_left rfl)
  rw [← own left, same, own right]

/-- Sorted lists with the same entries of every priority, in the same order, are equal. -/
theorem eq_of_ofPriority_eq (leftSorted : sortedByPriority left = true)
    (rightSorted : sortedByPriority right = true)
    (same : ∀ priority, ofPriority priority left = ofPriority priority right) :
    left = right := by
  induction left generalizing right with
  | nil =>
      cases right with
      | nil => rfl
      | cons second others =>
          exact absurd ((mem_iff_of_ofPriority_eq same).mpr List.mem_cons_self) (by simp)
  | cons first rest ih =>
      cases right with
      | nil => exact absurd ((mem_iff_of_ofPriority_eq same).mp List.mem_cons_self) (by simp)
      | cons second others =>
          -- each of the first entries is in the other list, so neither is of less priority
          have level : second.rule.priority = first.rule.priority := UInt32.le_antisymm
            (priority_le_head leftSorted
              ((mem_iff_of_ofPriority_eq same).mpr List.mem_cons_self))
            (priority_le_head rightSorted
              ((mem_iff_of_ofPriority_eq same).mp List.mem_cons_self))
          have heads := same first.rule.priority
          rw [ofPriority_cons_of_eq rfl, ofPriority_cons_of_eq level] at heads
          obtain ⟨rfl, -⟩ := List.cons.inj heads
          congr 1
          rw [sortedByPriority_iff] at leftSorted rightSorted
          apply ih (sortedByPriority_iff.mpr leftSorted.of_cons)
            (sortedByPriority_iff.mpr rightSorted.of_cons)
          intro priority
          have both := same priority
          by_cases own : first.rule.priority = priority
          · rw [ofPriority_cons_of_eq own, ofPriority_cons_of_eq own] at both
            exact (List.cons.inj both).2
          · rwa [ofPriority_cons_of_ne own, ofPriority_cons_of_ne own] at both

/-! ## The stable sort -/

/-- The entries in descending priority.  Those of a priority stay in the order they had. -/
def byPriority (entries : List EntryRef) : List EntryRef :=
  entries.mergeSort (fun one other => other.rule.priority ≤ one.rule.priority)

/-- Priorities compare as a merge sort wants it: transitively, and each pair somehow. -/
theorem descending_trans (one other third : EntryRef)
    (first : decide (other.rule.priority ≤ one.rule.priority) = true)
    (second : decide (third.rule.priority ≤ other.rule.priority) = true) :
    decide (third.rule.priority ≤ one.rule.priority) = true := by
  rw [decide_eq_true_eq] at *
  exact UInt32.le_trans second first

theorem descending_total (one other : EntryRef) :
    (decide (other.rule.priority ≤ one.rule.priority) ||
      decide (one.rule.priority ≤ other.rule.priority)) = true := by
  simpa using UInt32.le_total other.rule.priority one.rule.priority

theorem sortedByPriority_byPriority (entries : List EntryRef) :
    sortedByPriority (byPriority entries) = true := by
  rw [sortedByPriority_iff, byPriority]
  simpa using List.pairwise_mergeSort descending_trans descending_total entries

/-- The sort is stable. -/
theorem ofPriority_byPriority (priority : UInt32) (entries : List EntryRef) :
    ofPriority priority (byPriority entries) = ofPriority priority entries := by
  -- the entries of a priority are in order as they are, which the sort does not disturb
  have level : (ofPriority priority entries).Pairwise
      (fun one other => decide (other.rule.priority ≤ one.rule.priority) = true) := by
    refine List.pairwise_of_forall_mem_list fun one member other otherMember => ?_
    rw [(mem_ofPriority.mp member).2, (mem_ofPriority.mp otherMember).2]
    simp
  have kept : (ofPriority priority entries).Sublist (byPriority entries) :=
    List.sublist_mergeSort descending_trans descending_total level List.filter_sublist
  have within : (ofPriority priority entries).Sublist
      (ofPriority priority (byPriority entries)) := by
    have again : ofPriority priority (ofPriority priority entries) =
        ofPriority priority entries := by simp [ofPriority]
    rw [← again]
    exact kept.filter _
  refine (within.eq_of_length ?_).symm
  exact ((List.mergeSort_perm entries _).filter _).length_eq.symm

/-- A sorted list with the entries of every priority in order is what the sort makes. -/
theorem eq_byPriority (sorted : sortedByPriority left = true)
    (same : ∀ priority, ofPriority priority left = ofPriority priority right) :
    left = byPriority right :=
  eq_of_ofPriority_eq sorted (sortedByPriority_byPriority right) fun priority =>
    (same priority).trans (ofPriority_byPriority priority right).symm

/-! ## Insertions -/

/-- What stands behind the place of a new entry has a lower priority. -/
theorem priority_lt_of_mem_dropWhile (sorted : sortedByPriority entries = true)
    {other : EntryRef}
    (behind : other ∈ entries.dropWhile (entry.rule.priority ≤ ·.rule.priority)) :
    other.rule.priority < entry.rule.priority := by
  induction entries with
  | nil => exact absurd behind (by simp)
  | cons first rest ih =>
      by_cases kept : entry.rule.priority ≤ first.rule.priority
      · rw [List.dropWhile_cons_of_pos (by simpa using kept)] at behind
        exact ih (sortedByPriority_iff.mpr (sortedByPriority_iff.mp sorted).of_cons) behind
      · rw [List.dropWhile_cons_of_neg (by simpa using kept)] at behind
        exact UInt32.lt_of_le_of_lt (priority_le_head sorted behind) (UInt32.not_le.mp kept)

/-- A new entry comes behind the entries of its priority. -/
theorem ofPriority_insertByPriority (sorted : sortedByPriority entries = true)
    (entry : EntryRef) (priority : UInt32) :
    ofPriority priority (insertByPriority entries entry) =
      ofPriority priority (entries ++ [entry]) := by
  have parts : ofPriority priority (entries ++ [entry]) =
      ofPriority priority (entries.takeWhile (entry.rule.priority ≤ ·.rule.priority)) ++
        (ofPriority priority (entries.dropWhile (entry.rule.priority ≤ ·.rule.priority)) ++
          ofPriority priority [entry]) := by
    unfold ofPriority
    rw [← List.filter_append, ← List.filter_append, ← List.append_assoc,
      List.takeWhile_append_dropWhile]
  rw [insertByPriority_eq sorted, parts, ofPriority, List.filter_append]
  congr 1
  by_cases own : entry.rule.priority = priority
  · -- nothing of the priority of the entry stands behind it
    have none : ofPriority priority
        (entries.dropWhile (entry.rule.priority ≤ ·.rule.priority)) = [] := by
      refine List.eq_nil_iff_forall_not_mem.mpr fun other member => ?_
      obtain ⟨behind, level⟩ := mem_ofPriority.mp member
      have lower := priority_lt_of_mem_dropWhile sorted behind
      rw [level, own] at lower
      exact UInt32.lt_irrefl priority lower
    rw [none, List.nil_append]
    show ofPriority priority (entry :: _) = _
    rw [ofPriority_cons_of_eq own, none, ofPriority_cons_of_eq own]
    rfl
  · show ofPriority priority (entry :: _) = _
    rw [ofPriority_cons_of_ne own, ofPriority_cons_of_ne own]
    exact (List.append_nil _).symm

namespace PriorityList

variable {list : PriorityList}

/-- A new entry of no higher priority does not come before what a packet hits. -/
theorem find?_insert_of_le (sorted : sortedByPriority list.entries = true)
    (found : list.find? packet = some best)
    (lower : entry.rule.priority ≤ best.rule.priority) :
    (list.apply (.insert entry)).find? packet = some best := by
  have parts := List.takeWhile_append_dropWhile
    (p := fun other => decide (entry.rule.priority ≤ other.rule.priority)) (l := list.entries)
  unfold find? at found
  rw [← parts, List.find?_append, Option.or_eq_some_iff] at found
  have ahead : (list.entries.takeWhile (entry.rule.priority ≤ ·.rule.priority)).find?
      (fun other => other.rule.matchSet.Admits packet) = some best := by
    rcases found with ahead | ⟨-, behind⟩
    · exact ahead
    · have less := priority_lt_of_mem_dropWhile sorted (List.mem_of_find?_eq_some behind)
      exact absurd lower (UInt32.not_le.mpr less)
  show (insertByPriority list.entries entry).find? _ = some best
  rw [insertByPriority_eq sorted, List.find?_append, ahead]
  rfl

/-! ## Runs -/

/-- A list comes about by changes that are planned on it.  They leave the entries
`installed`, the last to be installed first. -/
inductive Reaches : PriorityList → List EntryRef → Prop
  | empty : Reaches PriorityList.empty []
  | step {list : PriorityList} {installed : List EntryRef} {request : Matcher.Request}
      {change : Change} (reached : Reaches list installed)
      (planned : (Matcher.list list).plan request = .ok change) :
      Reaches (list.apply change) (change.carryOut installed)

/-- What is planned installs what is missing and exchanges what is there. -/
theorem fits_of_plan {request : Matcher.Request}
    (planned : (Matcher.list list).plan request = .ok change) :
    change.Fits list.entries := by
  cases request with
  | add entry checkOverlap => exact fits_of_planAdd planned
  | remove ledger target =>
      cases target <;> obtain rfl := Except.ok.inj planned <;> exact trivial
  | clear =>
      obtain rfl := Except.ok.inj planned
      exact trivial

/-- The list is well-formed, with the entries of each priority in order of installation. -/
structure InTurn (list : PriorityList) (installed : List EntryRef) : Prop where
  formed : list.WellFormed
  inTurn : ∀ priority,
    ofPriority priority list.entries = ofPriority priority installed.reverse

namespace InTurn

/-- A fitting change keeps the entries of each priority in order of installation. -/
theorem apply (inTurn : list.InTurn installed) (fits : change.Fits list.entries) :
    (list.apply change).InTurn (change.carryOut installed) where
  formed := inTurn.formed.apply fits
  inTurn priority := by
    have before := inTurn.inTurn priority
    cases change with
    | insert entry =>
        show ofPriority priority (insertByPriority list.entries entry) = _
        rw [ofPriority_insertByPriority inTurn.formed.sorted, Change.carryOut,
          List.reverse_cons, ofPriority, List.filter_append]
        exact (congrArg (· ++ _) before).trans (List.filter_append ..).symm
    | replace old new =>
        have level : ((fun entry : EntryRef => decide (entry.rule.priority = priority)) ∘
            old.exchange new) = fun entry => decide (entry.rule.priority = priority) :=
          funext fun entry => by rw [Function.comp, priority_exchange fits.2]
        show ofPriority priority (replaceFirst old new list.entries) = _
        rw [replaceFirst_eq_map inTurn.formed.apart.nodup, Change.carryOut,
          ← List.map_reverse, ofPriority, ofPriority, List.filter_map, List.filter_map, level]
        exact congrArg (List.map _) before
    | remove gone =>
        show ofPriority priority (list.entries.filter (· ∉ gone)) = _
        rw [Change.carryOut, ← List.filter_reverse, ofPriority, ofPriority,
          List.filter_comm, List.filter_comm _ _ installed.reverse]
        exact congrArg (List.filter _) before
    | clear => rfl

theorem entries_eq (inTurn : list.InTurn installed) :
    list.entries = byPriority installed.reverse :=
  eq_byPriority inTurn.formed.sorted inTurn.inTurn

theorem mem_iff (inTurn : list.InTurn installed) :
    entry ∈ list.entries ↔ entry ∈ installed :=
  (mem_iff_of_ofPriority_eq inTurn.inTurn).trans List.mem_reverse

/-- A packet hits the earliest of the entries of the highest priority that it satisfies. -/
theorem find?_eq (inTurn : list.InTurn installed) (packet : Packet) :
    list.find? packet = installed.reverse.find? (fun entry =>
      entry.rule.matchSet.Admits packet ∧
        ∀ other ∈ installed, other.rule.matchSet.Admits packet →
          other.rule.priority ≤ entry.rule.priority) := by
  have answers := find?_answers inTurn.formed.sorted packet
  cases found : list.find? packet with
  | none =>
      rw [found] at answers
      symm
      refine List.find?_eq_none.mpr fun entry member => ?_
      have unsatisfied := answers entry (inTurn.mem_iff.mpr (List.mem_reverse.mp member))
      simp [unsatisfied]
  | some best =>
      rw [found] at answers
      obtain ⟨listed, satisfied, highest⟩ := answers
      -- among the installed entries, those of the highest priority are those of this one
      have level : ∀ entry ∈ installed.reverse,
          decide (entry.rule.matchSet.Admits packet ∧
            ∀ other ∈ installed, other.rule.matchSet.Admits packet →
              other.rule.priority ≤ entry.rule.priority) =
          decide (decide (entry.rule.priority = best.rule.priority) = true ∧
            decide (entry.rule.matchSet.Admits packet) = true) := by
        intro entry member
        have installedEntry := inTurn.mem_iff.mpr (List.mem_reverse.mp member)
        simp only [decide_eq_true_eq, decide_eq_decide]
        constructor
        · rintro ⟨admits, top⟩
          exact ⟨UInt32.le_antisymm (highest entry installedEntry admits)
            (top best (inTurn.mem_iff.mp listed) satisfied), admits⟩
        · rintro ⟨same, admits⟩
          refine ⟨admits, fun other otherMember otherAdmits => ?_⟩
          rw [same]
          exact highest other (inTurn.mem_iff.mpr otherMember) otherAdmits
      rw [List.find?_congr level, ← List.find?_filter]
      have first := find?_ofPriority found
      rw [inTurn.inTurn] at first
      exact first.symm

end InTurn

theorem Reaches.inTurn (reached : list.Reaches installed) : list.InTurn installed := by
  induction reached with
  | empty => exact ⟨.empty, fun _ => rfl⟩
  | step reached planned ih => exact ih.apply (fits_of_plan planned)

/--
Along every run the list is the stable sort, by descending priority, of the installed
entries in the order of their installation.  A packet hits the earliest of those of the
highest priority that it satisfies, and a new entry of no higher priority, be it of the
same, does not change that.
-/
theorem Reaches.firstCome (reached : list.Reaches installed) :
    list.entries = byPriority installed.reverse ∧
      (∀ packet, list.find? packet = installed.reverse.find? (fun entry =>
        entry.rule.matchSet.Admits packet ∧
          ∀ other ∈ installed, other.rule.matchSet.Admits packet →
            other.rule.priority ≤ entry.rule.priority)) ∧
      ∀ packet best, list.find? packet = some best →
        ∀ entry : EntryRef, entry.rule.priority ≤ best.rule.priority →
          (list.apply (.insert entry)).find? packet = some best :=
  ⟨reached.inTurn.entries_eq, reached.inTurn.find?_eq,
    fun _ _ found _ => find?_insert_of_le reached.inTurn.formed.sorted found⟩

/-- A rule for every packet, of the priority of `Trie.subnet`. -/
def fallback : EntryRef where
  id := 1
  rule := { priority := 1 }

/-- The rule of `Trie.subnet` with another cookie, which takes its place and its turn. -/
def renewed : EntryRef where
  id := 2
  rule := { Trie.subnet.rule with cookie := 7 }

theorem reaches_renewed : (PriorityList.mk [renewed, fallback]).Reaches [fallback, renewed] := by
  have network : (Matcher.list empty).plan (.add Trie.subnet true) =
      .ok (.insert Trie.subnet) := by decide
  have every : (Matcher.list ⟨[Trie.subnet]⟩).plan (.add fallback false) =
      .ok (.insert fallback) := by decide
  have again : (Matcher.list ⟨[Trie.subnet, fallback]⟩).plan (.add renewed false) =
      .ok (.replace Trie.subnet renewed) := by decide
  have behind : (PriorityList.mk [Trie.subnet]).apply (.insert fallback) =
      ⟨[Trie.subnet, fallback]⟩ := by
    rw [apply, insertByPriority_eq rfl]
    decide
  have both := (Reaches.empty.step network).step every
  exact (behind ▸ both).step again

/-- A packet of the network hits the renewed rule, also when the other comes once more. -/
theorem renewed_firstCome :
    (PriorityList.mk [renewed, fallback]).Reaches [fallback, renewed] ∧
      fallback.rule.priority ≤ renewed.rule.priority ∧
      [renewed, fallback] = byPriority [renewed, fallback] ∧
      ((PriorityList.mk [renewed, fallback]).apply (.insert fallback)).find?
        (Packet.empty.set .ipv4Dst 0x0A000001) = some renewed := by
  obtain ⟨sorted, -, kept⟩ := reaches_renewed.firstCome
  exact ⟨reaches_renewed, by decide, sorted,
    kept _ renewed (by decide) fallback (by decide)⟩

end PriorityList

end PacketClassifier
