import PacketClassifier.Proofs.Answers
import PacketClassifier.Proofs.Planning

/-!
# The list as a matcher

A list by priority stays sorted, and its entries stay told apart, under every change
that fits what is installed.  The changes that are planned on it do.
-/

namespace PacketClassifier

variable {entries : List EntryRef} {entry old new : EntryRef} {change : Change}

/-- The change installs what is missing and exchanges what is there. -/
def Change.Fits (installed : List EntryRef) : Change → Prop
  | .insert entry => entry.rule.key ∉ installed.map (·.rule.key)
  | .replace old new => old ∈ installed ∧ new.rule.key = old.rule.key
  | .remove _ | .clear => True

theorem ToldApart.carryOut (apart : ToldApart entries)
    (fits : change.Fits entries) : ToldApart (change.carryOut entries) := by
  cases change with
  | insert entry => exact apart.cons fits
  | replace old new => exact apart.exchange fits.2
  | remove gone => exact apart.sublist (List.filter_sublist.map _)
  | clear => exact List.nodup_nil

namespace PriorityList

variable {list : PriorityList} {checkOverlap : Bool}

/-- Where entries are distinct, there is no occurrence of an entry but the first. -/
theorem replaceFirst_eq_map (distinct : entries.Nodup) :
    replaceFirst old new entries = entries.map (old.exchange new) := by
  induction entries with
  | nil => rfl
  | cons first rest ih =>
      rcases List.nodup_cons.mp distinct with ⟨fresh, restDistinct⟩
      rw [replaceFirst, List.map_cons]
      split
      · rename_i found
        subst found
        rw [EntryRef.exchange_self, map_exchange_of_not_mem fresh]
      · rename_i other
        rw [EntryRef.exchange_of_ne other, ih restDistinct]

/-- The invariant of lists by priority. -/
structure WellFormed (list : PriorityList) : Prop where
  sorted : sortedByPriority list.entries = true
  apart : ToldApart list.entries

theorem WellFormed.empty : PriorityList.empty.WellFormed where
  sorted := rfl
  apart := List.nodup_nil

/-- A fitting change does to the entries what it says, whatever their order. -/
theorem WellFormed.carryOut_perm (formed : list.WellFormed) (change : Change) :
    (list.apply change).entries.Perm (change.carryOut list.entries) := by
  cases change with
  | insert entry => exact insertByPriority_perm _ _
  | replace old new =>
      exact List.Perm.of_eq (replaceFirst_eq_map formed.apart.nodup)
  | remove gone => exact List.Perm.refl _
  | clear => exact List.Perm.refl _

theorem WellFormed.apply (formed : list.WellFormed)
    (fits : change.Fits list.entries) : (list.apply change).WellFormed where
  sorted := by
    cases change with
    | insert entry => exact sortedByPriority_insert formed.sorted entry
    | replace old new =>
        show sortedByPriority (replaceFirst old new list.entries) = true
        rw [replaceFirst_eq_map formed.apart.nodup]
        exact sortedByPriority_exchange fits.2 formed.sorted
    | remove gone =>
        rw [sortedByPriority_iff]
        exact (sortedByPriority_iff.mp formed.sorted).sublist
          List.filter_sublist
    | clear => rfl
  apart := (formed.apart.carryOut fits).perm (formed.carryOut_perm change).symm

theorem fits_of_planAdd (planned : list.planAdd entry checkOverlap = .ok change) :
    change.Fits list.entries := by
  rcases planAdd_cases planned with ⟨old, member, same, rfl⟩ | ⟨fresh, rfl⟩
  · exact ⟨member, same⟩
  · exact fresh

/-- The only reason to refuse an entry is an overlap. -/
theorem eq_overlap_of_planAdd {cause : RequestError}
    (refused : list.planAdd entry checkOverlap = .error cause) :
    cause = .overlap := by
  unfold planAdd at refused
  split at refused
  · exact (Except.error.inj refused).symm
  · split at refused
    · exact absurd refused (by simp)
    · exact absurd refused (by simp)

end PriorityList

end PacketClassifier
