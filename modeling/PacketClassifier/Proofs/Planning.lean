import Mathlib.Data.List.Nodup
import PacketClassifier.Proofs.PriorityOrder

/-!
# Plans and the entries they are about

Installed entries are told apart by priority and conjunction, so a request to install
an entry meets at most one entry that has to give way.  What a plan comes to is a
matter of which entries are installed; their order does not count.
-/

namespace PacketClassifier

/-- What tells installed rules apart. -/
def Rule.key (rule : Rule) : UInt32 × MatchSet :=
  (rule.priority, rule.matchSet)

theorem Rule.sameAs_iff {rule template : Rule} :
    rule.SameAs template false ↔ rule.key = template.key := by
  simp [Rule.SameAs, Rule.key]

/-- No two entries have the same priority and conjunction. -/
def ToldApart (entries : List EntryRef) : Prop :=
  (entries.map (·.rule.key)).Nodup

variable {entries others : List EntryRef} {entry old new : EntryRef}

namespace ToldApart

theorem nodup (apart : ToldApart entries) : entries.Nodup :=
  apart.of_map _

theorem perm (apart : ToldApart entries) (same : entries.Perm others) :
    ToldApart others :=
  (same.map _).nodup_iff.mp apart

theorem cons (apart : ToldApart entries)
    (fresh : entry.rule.key ∉ entries.map (·.rule.key)) :
    ToldApart (entry :: entries) :=
  List.nodup_cons.mpr ⟨fresh, apart⟩

theorem eq_of_key (apart : ToldApart entries) (left : old ∈ entries)
    (right : new ∈ entries) (same : old.rule.key = new.rule.key) : old = new :=
  List.inj_on_of_nodup_map apart left right same

/-- At most one entry has the priority and the conjunction of a template. -/
theorem find?_eq_some_iff (apart : ToldApart entries) :
    entries.find? (fun other => other.rule.SameAs entry.rule false) = some old ↔
      old ∈ entries ∧ old.rule.key = entry.rule.key := by
  constructor
  · intro found
    have same := List.find?_some found
    simp only [decide_eq_true_eq] at same
    exact ⟨List.mem_of_find?_eq_some found, Rule.sameAs_iff.mp same⟩
  · rintro ⟨member, same⟩
    cases found : entries.find?
        (fun other => other.rule.SameAs entry.rule false) with
    | none =>
        have absent := List.find?_eq_none.mp found old member
        exact absurd (decide_eq_true (Rule.sameAs_iff.mpr same)) absent
    | some other =>
        have alike := List.find?_some found
        simp only [decide_eq_true_eq] at alike
        have both := (Rule.sameAs_iff.mp alike).trans same.symm
        rw [apart.eq_of_key (List.mem_of_find?_eq_some found) member both]

end ToldApart

theorem find?_sameAs_eq_none_iff :
    entries.find? (fun other => other.rule.SameAs entry.rule false) = none ↔
      entry.rule.key ∉ entries.map (·.rule.key) := by
  rw [List.find?_eq_none, List.mem_map]
  constructor
  · rintro missing ⟨other, member, same⟩
    exact missing other member (decide_eq_true (Rule.sameAs_iff.mpr same))
  · intro fresh other member same
    exact fresh ⟨other, member, Rule.sameAs_iff.mp (of_decide_eq_true same)⟩

/--
Lists with the same entries of a key find the same entry, whatever else they hold.
-/
theorem find?_sameAs_congr (entry : EntryRef) (apart : ToldApart others)
    (same : ∀ other, other.rule.key = entry.rule.key →
      (other ∈ entries ↔ other ∈ others)) :
    entries.find? (fun other => other.rule.SameAs entry.rule false) =
      others.find? (fun other => other.rule.SameAs entry.rule false) := by
  cases found : entries.find?
      (fun other => other.rule.SameAs entry.rule false) with
  | none =>
      symm
      rw [find?_sameAs_eq_none_iff, List.mem_map] at *
      rintro ⟨other, member, key⟩
      exact found ⟨other, (same other key).mpr member, key⟩
  | some old =>
      have alike := List.find?_some found
      simp only [decide_eq_true_eq] at alike
      have key := Rule.sameAs_iff.mp alike
      symm
      rw [apart.find?_eq_some_iff]
      exact ⟨(same old key).mp (List.mem_of_find?_eq_some found), key⟩

/-! ## Exchanges -/

/-- The entry that stands where `entry` stood after `old` gave way to `new`. -/
def EntryRef.exchange (old new entry : EntryRef) : EntryRef :=
  if entry = old then new else entry

@[simp]
theorem EntryRef.exchange_self : old.exchange new old = new :=
  if_pos rfl

theorem EntryRef.exchange_of_ne (other : entry ≠ old) :
    old.exchange new entry = entry :=
  if_neg other

theorem key_exchange (same : new.rule.key = old.rule.key) (entry : EntryRef) :
    (old.exchange new entry).rule.key = entry.rule.key := by
  by_cases found : entry = old
  · rw [found, EntryRef.exchange_self, same]
  · rw [EntryRef.exchange_of_ne found]

theorem priority_exchange (same : new.rule.key = old.rule.key) (entry : EntryRef) :
    (old.exchange new entry).rule.priority = entry.rule.priority :=
  congrArg Prod.fst (key_exchange same entry)

theorem matchSet_exchange (same : new.rule.key = old.rule.key) (entry : EntryRef) :
    (old.exchange new entry).rule.matchSet = entry.rule.matchSet :=
  congrArg Prod.snd (key_exchange same entry)

theorem ToldApart.exchange (apart : ToldApart entries)
    (same : new.rule.key = old.rule.key) :
    ToldApart (entries.map (old.exchange new)) := by
  have keys : (fun entry : EntryRef => entry.rule.key) ∘ old.exchange new =
      fun entry => entry.rule.key := funext (key_exchange same)
  rw [ToldApart, List.map_map, keys]
  exact apart

theorem map_exchange_of_not_mem (absent : old ∉ entries) :
    entries.map (old.exchange new) = entries := by
  have kept : ∀ entry ∈ entries, old.exchange new entry = entry := by
    intro entry member
    apply EntryRef.exchange_of_ne
    rintro rfl
    exact absent member
  rw [List.map_congr_left kept, List.map_id']

/-- Where entries are distinct, an exchange changes a single position. -/
theorem set_eq_map_exchange {position : Nat} (distinct : entries.Nodup)
    (found : entries[position]? = some old) :
    entries.set position new = entries.map (old.exchange new) := by
  obtain ⟨below, here⟩ := List.getElem?_eq_some_iff.mp found
  apply List.ext_getElem
  · simp
  · intro i left right
    have inside : i < entries.length := by simpa using right
    rw [List.getElem_set, List.getElem_map]
    by_cases same : position = i
    · subst same
      simp [here]
    · have different : entries[i] ≠ old := by
        intro equal
        exact same ((List.Nodup.getElem_inj_iff distinct).mp
          (here.trans equal.symm))
      rw [if_neg same, EntryRef.exchange_of_ne different]

/-- Where entries are distinct, an exchange takes `old` out and puts `new` in. -/
theorem map_exchange_perm (distinct : entries.Nodup) (member : old ∈ entries) :
    (entries.map (old.exchange new)).Perm (new :: entries.erase old) := by
  have front := List.perm_cons_erase member
  have absent : old ∉ entries.erase old :=
    (List.nodup_cons.mp (front.nodup_iff.mp distinct)).1
  have moved := front.map (old.exchange new)
  rwa [List.map_cons, EntryRef.exchange_self,
    map_exchange_of_not_mem absent] at moved

theorem sortedByPriority_exchange (same : new.rule.key = old.rule.key)
    (sorted : sortedByPriority entries = true) :
    sortedByPriority (entries.map (old.exchange new)) = true := by
  rw [sortedByPriority_iff] at *
  rw [List.pairwise_map]
  simpa only [priority_exchange same] using sorted

/-! ## Plans -/

/-- What a change makes of the entries that are installed. -/
def Change.carryOut : Change → List EntryRef → List EntryRef
  | .insert entry, installed => entry :: installed
  | .replace old new, installed => installed.map (old.exchange new)
  | .remove entries, installed => installed.filter (· ∉ entries)
  | .clear, _ => []

theorem Change.carryOut_perm (change : Change) (same : entries.Perm others) :
    (change.carryOut entries).Perm (change.carryOut others) := by
  cases change with
  | insert entry => exact same.cons entry
  | replace old new => exact same.map _
  | remove gone => exact same.filter _
  | clear => exact List.Perm.refl []

namespace PriorityList

variable {list left right : PriorityList} {checkOverlap : Bool} {change : Change}

/-- A plan installs the entry, in the place of an installed one if that is alike. -/
theorem planAdd_cases (planned : list.planAdd entry checkOverlap = .ok change) :
    (∃ old ∈ list.entries,
      entry.rule.key = old.rule.key ∧ change = .replace old entry) ∨
      entry.rule.key ∉ list.entries.map (·.rule.key) ∧
        change = .insert entry := by
  unfold planAdd at planned
  split at planned
  · exact absurd planned (by simp)
  · split at planned
    · rename_i old found
      have alike := List.find?_some found
      simp only [decide_eq_true_eq] at alike
      exact Or.inl ⟨old, List.mem_of_find?_eq_some found,
        (Rule.sameAs_iff.mp alike).symm, (Except.ok.inj planned).symm⟩
    · rename_i missing
      exact Or.inr ⟨find?_sameAs_eq_none_iff.mp missing,
        (Except.ok.inj planned).symm⟩

/-- Plans do not depend on the order of the entries. -/
theorem planAdd_congr (apart : ToldApart left.entries)
    (same : left.entries.Perm right.entries) :
    left.planAdd entry checkOverlap = right.planAdd entry checkOverlap := by
  have found := find?_sameAs_congr entry (apart.perm same)
    (fun other _ => same.mem_iff)
  unfold planAdd
  simp only [same.mem_iff, found]

end PriorityList

end PacketClassifier
