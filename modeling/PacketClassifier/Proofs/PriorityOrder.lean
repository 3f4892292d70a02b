import PacketClassifier.PriorityList

/-!
# Lists in descending priority

An insertion by priority splits a sorted list: what stands before the new entry
has at least its priority, and what stands behind has less.  The split is found by
bisection, so the module starts with what bisection finds among positions of
which the ones with the property come first.
-/

namespace PacketClassifier

/-! ## Bisection -/

namespace Bisection

variable {holds : Nat → Bool} {stop : Nat}

/-- Bisection stays where it started while no position has the property. -/
theorem narrow_eq_base {base size : Nat}
    (absent : ∀ i < base + size, ¬ holds i = true) :
    narrow holds base size = base := by
  induction size using Nat.strongRecOn with
  | _ size ih =>
      rw [narrow]
      split
      · rfl
      · rename_i several
        simp only []
        rw [if_neg (absent (base + size / 2) (by omega))]
        exact ih _ (by omega) (fun i below => absent i (by omega))

/-- Bisection closes in on the last position of a run that it started in. -/
theorem narrow_eq_last {base size : Nat}
    (run : ∀ i < base + size, holds i = true ↔ i < stop)
    (started : base < stop) (ends : stop ≤ base + size) :
    narrow holds base size + 1 = stop := by
  induction size using Nat.strongRecOn generalizing base with
  | _ size ih =>
      rw [narrow]
      split
      · omega
      · rename_i several
        have middle := run (base + size / 2) (by omega)
        simp only []
        by_cases inside : base + size / 2 < stop
        · rw [if_pos (middle.2 inside)]
          exact ih _ (by omega) (fun i below => run i (by omega)) inside
            (by omega)
        · rw [if_neg (fun found => inside (middle.1 found))]
          exact ih _ (by omega) (fun i below => run i (by omega)) started
            (by omega)

/-- The end of the run is the first position without the property. -/
theorem runEnd_eq {size : Nat}
    (run : ∀ i < size, holds i = true ↔ i < stop) (ends : stop ≤ size) :
    runEnd holds size = stop := by
  unfold runEnd
  split
  · omega
  · rename_i nonempty
    by_cases started : 0 < stop
    · have last : narrow holds 0 size + 1 = stop :=
        narrow_eq_last (by simpa using run) started (by omega)
      have found := (run (narrow holds 0 size) (by omega)).2 (by omega)
      simp only [found, if_true]
      exact last
    · have absent : ∀ i < 0 + size, ¬ holds i = true :=
        fun i below found => by
          have := (run i (by omega)).1 found
          omega
      have missing := absent 0 (by omega)
      simp only [narrow_eq_base absent, missing]
      simp
      omega

end Bisection

/-! ## Sorted lists -/

theorem sortedByPriority_iff {entries : List EntryRef} :
    sortedByPriority entries = true ↔
      entries.Pairwise
        (fun first later => later.rule.priority ≤ first.rule.priority) := by
  induction entries with
  | nil => simp [sortedByPriority]
  | cons first rest ih =>
      cases rest with
      | nil => simp [sortedByPriority]
      | cons second rest =>
          rw [sortedByPriority, Bool.and_eq_true, ih, decide_eq_true_iff]
          constructor
          · rintro ⟨ordered, sorted⟩
            refine List.pairwise_cons.mpr ⟨fun later member => ?_, sorted⟩
            rcases List.mem_cons.mp member with rfl | deeper
            · exact ordered
            · exact UInt32.le_trans
                ((List.pairwise_cons.mp sorted).1 later deeper) ordered
          · intro sorted
            have parts := List.pairwise_cons.mp sorted
            exact ⟨parts.1 second List.mem_cons_self, parts.2⟩

/-- The first entry of a sorted list has the highest priority. -/
theorem priority_le_head {first : EntryRef} {rest : List EntryRef}
    (sorted : sortedByPriority (first :: rest) = true) {entry : EntryRef}
    (member : entry ∈ first :: rest) :
    entry.rule.priority ≤ first.rule.priority := by
  rcases List.mem_cons.mp member with rfl | later
  · exact UInt32.le_refl _
  · exact (List.pairwise_cons.mp (sortedByPriority_iff.mp sorted)).1 entry later

/-! ## Insertion -/

/-- An insertion adds the entry and keeps every other one. -/
theorem insertByPriority_perm (entries : List EntryRef) (entry : EntryRef) :
    (insertByPriority entries entry).Perm (entry :: entries) := by
  unfold insertByPriority
  refine List.perm_middle.trans (List.Perm.cons entry ?_)
  rw [List.take_append_drop]

/--
An insertion splits a sorted list behind the last entry whose priority is at least
that of the new one.
-/
theorem insertByPriority_eq {entries : List EntryRef}
    (sorted : sortedByPriority entries = true) (entry : EntryRef) :
    insertByPriority entries entry =
      entries.takeWhile (entry.rule.priority ≤ ·.rule.priority) ++
        entry :: entries.dropWhile (entry.rule.priority ≤ ·.rule.priority) := by
  have stop : Bisection.runEnd
      (fun position => entries[position]?.any
        (fun other => entry.rule.priority ≤ other.rule.priority))
      entries.length =
      entries.findIdx
        (fun other => !decide (entry.rule.priority ≤ other.rule.priority)) := by
    apply Bisection.runEnd_eq
    · intro i below
      rw [List.getElem?_eq_getElem below, Option.any_some, decide_eq_true_iff]
      constructor
      · intro found
        apply List.lt_findIdx_of_not below
        intro j earlier
        have ordered : entries[i].rule.priority ≤ entries[j].rule.priority := by
          rcases Nat.lt_or_eq_of_le earlier with before | rfl
          · exact List.pairwise_iff_getElem.mp (sortedByPriority_iff.mp sorted)
              j i (by omega) below before
          · exact UInt32.le_refl _
        simpa using UInt32.le_trans found ordered
      · intro before
        simpa using List.not_of_lt_findIdx before
    · exact List.findIdx_le_length
  rw [insertByPriority, stop, List.takeWhile_eq_take_findIdx_not,
    List.dropWhile_eq_drop_findIdx_not]

theorem sortedByPriority_insert {entries : List EntryRef}
    (sorted : sortedByPriority entries = true) (entry : EntryRef) :
    sortedByPriority (insertByPriority entries entry) = true := by
  rw [insertByPriority_eq sorted]
  rw [sortedByPriority_iff] at *
  induction entries with
  | nil => simp
  | cons first rest ih =>
      have parts := List.pairwise_cons.mp sorted
      by_cases kept : entry.rule.priority ≤ first.rule.priority
      · rw [List.takeWhile_cons_of_pos (by simpa using kept),
          List.dropWhile_cons_of_pos (by simpa using kept)]
        refine List.pairwise_cons.mpr ⟨fun later member => ?_, ih parts.2⟩
        rcases List.mem_append.mp member with before | behind
        · exact parts.1 later (List.takeWhile_subset _ before)
        · rcases List.mem_cons.mp behind with rfl | after
          · exact kept
          · exact parts.1 later (List.dropWhile_subset _ after)
      · rw [List.takeWhile_cons_of_neg (by simpa using kept),
          List.dropWhile_cons_of_neg (by simpa using kept)]
        have lower : first.rule.priority ≤ entry.rule.priority :=
          UInt32.le_of_lt (UInt32.not_le.mp kept)
        refine List.pairwise_cons.mpr ⟨fun later member => ?_, sorted⟩
        rcases List.mem_cons.mp member with rfl | deeper
        · exact lower
        · exact UInt32.le_trans (parts.1 later deeper) lower

/-- What an insertion leads with: the new entry if nothing has its priority. -/
theorem head?_insertByPriority {entries : List EntryRef}
    (sorted : sortedByPriority entries = true) (entry : EntryRef) :
    (insertByPriority entries entry).head? =
      if entries.head?.any (entry.rule.priority ≤ ·.rule.priority) then
        entries.head?
      else
        some entry := by
  rw [insertByPriority_eq sorted]
  cases entries with
  | nil => rfl
  | cons first rest =>
      by_cases higher : entry.rule.priority ≤ first.rule.priority
      · simp [higher]
      · simp [higher]

end PacketClassifier
