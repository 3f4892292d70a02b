import PacketClassifier.Proofs.ListMatcher
import PacketClassifier.Proofs.Trie.BestMatch

/-!
# A trie and a list side by side

The same requests are made to a trie and to a list, and each enacts its own plans.
As long as the trie has room, the two make the same plans, hold the same entries and
have answers of the same priority.  What holds them together is the record of what is
installed: neither plans nor answers depend on anything else.
-/

namespace PacketClassifier

variable {trie : Trie} {list : PriorityList} {entry : EntryRef}
  {checkOverlap : Bool} {installed : List EntryRef}

/-- Apply what was planned, if anything was. -/
def Trie.enact (trie : Trie) : Except RequestError Change → Trie
  | .ok change => trie.apply change
  | .error _ => trie

def PriorityList.enact (list : PriorityList) :
    Except RequestError Change → PriorityList
  | .ok change => list.apply change
  | .error _ => list

/-- The trie and the list come about by the same requests. -/
inductive SideBySide : Trie → PriorityList → Prop
  | empty : SideBySide Trie.empty PriorityList.empty
  | add {trie : Trie} {list : PriorityList} (together : SideBySide trie list)
      (entry : EntryRef) (checkOverlap : Bool)
      (room : trie.planAdd entry checkOverlap ≠ .error .arenaFull) :
      SideBySide (trie.enact (trie.planAdd entry checkOverlap))
        (list.enact (list.planAdd entry checkOverlap))
  | clear {trie : Trie} {list : PriorityList} (together : SideBySide trie list) :
      SideBySide (trie.apply .clear) (list.apply .clear)

/-- Both matchers hold the installed entries, each in its own order. -/
structure Mirrors (trie : Trie) (list : PriorityList)
    (installed : List EntryRef) : Prop where
  reached : trie.Reaches installed
  formed : list.WellFormed
  same : list.entries.Perm installed

/-- Where a trie has room, it plans what a list of the same entries does. -/
theorem Mirrors.planAdd_eq (mirrors : Mirrors trie list installed)
    (room : trie.planAdd entry checkOverlap ≠ .error .arenaFull) :
    trie.planAdd entry checkOverlap = list.planAdd entry checkOverlap := by
  obtain ⟨chain, formed, held⟩ := mirrors.reached.formed
  have listed : (PriorityList.mk (trie.inventory chain)).planAdd entry
      checkOverlap = list.planAdd entry checkOverlap :=
    PriorityList.planAdd_congr formed.apart (held.trans mirrors.same.symm)
  rw [formed.planAdd_eq, listed] at room ⊢
  cases planned : list.planAdd entry checkOverlap with
  | error cause => rfl
  | ok change =>
      rw [planned] at room
      simp only [bind, Except.bind] at room ⊢
      split
      · rename_i full
        rw [if_pos full] at room
        exact absurd rfl room
      · rfl

/-- The same change keeps both matchers holding the same entries. -/
theorem Mirrors.apply {change : Change} (mirrors : Mirrors trie list installed)
    (planned : trie.Plans change) (fits : change.Fits list.entries) :
    Mirrors (trie.apply change) (list.apply change)
      (change.carryOut installed) where
  reached := mirrors.reached.step planned
  formed := mirrors.formed.apply fits
  same := (mirrors.formed.carryOut_perm change).trans
    (Change.carryOut_perm change mirrors.same)

theorem SideBySide.mirrors (together : SideBySide trie list) :
    ∃ installed, Mirrors trie list installed := by
  induction together with
  | empty => exact ⟨[], .empty, .empty, List.Perm.refl []⟩
  | clear together ih =>
      obtain ⟨installed, mirrors⟩ := ih
      exact ⟨_, mirrors.apply .clear trivial⟩
  | @add trie list together entry checkOverlap room ih =>
      obtain ⟨installed, mirrors⟩ := ih
      rw [mirrors.planAdd_eq room]
      cases planned : list.planAdd entry checkOverlap with
      | error cause => exact ⟨installed, mirrors⟩
      | ok change =>
          have plans : trie.Plans change :=
            .add ((mirrors.planAdd_eq room).trans planned)
          exact ⟨_, mirrors.apply plans
            (PriorityList.fits_of_planAdd planned)⟩

/-- What two matchers make of a request is the same, and it is of one of three kinds. -/
def SamePlan (left right : Except RequestError Change) (entry : EntryRef) :
    Prop :=
  (left = .error .overlap ∧ right = .error .overlap) ∨
    (left = .ok (.insert entry) ∧ right = .ok (.insert entry)) ∨
    ∃ old, left = .ok (.replace old entry) ∧ right = .ok (.replace old entry)

theorem Mirrors.samePlan (mirrors : Mirrors trie list installed)
    (room : trie.planAdd entry checkOverlap ≠ .error .arenaFull) :
    SamePlan (trie.planAdd entry checkOverlap) (list.planAdd entry checkOverlap)
      entry := by
  rw [mirrors.planAdd_eq room]
  cases planned : list.planAdd entry checkOverlap with
  | error cause =>
      rw [PriorityList.eq_overlap_of_planAdd planned]
      exact Or.inl ⟨rfl, rfl⟩
  | ok change =>
      rcases PriorityList.planAdd_cases planned with
        ⟨old, -, -, rfl⟩ | ⟨-, rfl⟩
      · exact Or.inr (Or.inr ⟨old, rfl, rfl⟩)
      · exact Or.inr (Or.inl ⟨rfl, rfl⟩)

/-- The sample comes about side by side with a list of the same rules. -/
theorem sideBySide_sample :
    SideBySide Trie.sample ⟨[Trie.host, Trie.subnet]⟩ := by
  have first : SideBySide (Trie.empty.apply (.insert Trie.subnet))
      ⟨[Trie.subnet]⟩ := SideBySide.empty.add Trie.subnet true (by decide)
  have second := first.add Trie.host true (by decide)
  have tries : (Trie.empty.apply (.insert Trie.subnet)).planAdd Trie.host true =
      .ok (.insert Trie.host) := by decide
  have lists : (PriorityList.mk [Trie.subnet]).planAdd Trie.host true =
      .ok (.insert Trie.host) := by decide
  have ahead : insertByPriority [Trie.subnet] Trie.host =
      [Trie.host, Trie.subnet] := by
    rw [insertByPriority_eq rfl]
    decide
  rw [tries, lists, PriorityList.enact, PriorityList.apply, ahead] at second
  exact second

/--
Side by side, a trie that has room and a list make the same plans, hold the same
entries, each once, and find entries of the same priority, or both none.
-/
theorem SideBySide.agree (together : SideBySide trie list) :
    (∀ entry checkOverlap,
      trie.planAdd entry checkOverlap ≠ .error .arenaFull →
        SamePlan (trie.planAdd entry checkOverlap)
          (list.planAdd entry checkOverlap) entry) ∧
      trie.entries.Perm list.entries ∧ trie.entries.Nodup ∧
      trie.size = list.entries.length ∧
      ∀ packet, (trie.find? packet).map (·.rule.priority) =
        (list.find? packet).map (·.rule.priority) := by
  obtain ⟨installed, mirrors⟩ := together.mirrors
  obtain ⟨chain, formed, held⟩ := mirrors.reached.formed
  have same : trie.entries.Perm list.entries :=
    mirrors.reached.entries_perm.trans mirrors.same.symm
  refine ⟨fun entry checkOverlap => mirrors.samePlan, same, ?_, ?_, ?_⟩
  · exact same.nodup_iff.mpr mirrors.formed.apart.nodup
  · rw [formed.size, held.length_eq, mirrors.same.length_eq]
  · intro packet
    have found := mirrors.reached.find?_answers packet
    have listed := PriorityList.find?_answers mirrors.formed.sorted packet
    exact found.priority_eq (listed.perm mirrors.same)

/-- The rule of the network, installed once more. -/
def Trie.subnetAgain : EntryRef :=
  { Trie.subnet with id := 2 }

/--
Both matchers of the sample exchange the rule that comes again for the one they hold.
If overlaps are looked for, both refuse it.
-/
theorem sample_agree :
    SideBySide Trie.sample ⟨[Trie.host, Trie.subnet]⟩ ∧
      (∀ checkOverlap,
        SamePlan (Trie.sample.planAdd Trie.subnetAgain checkOverlap)
          ((PriorityList.mk [Trie.host, Trie.subnet]).planAdd Trie.subnetAgain
            checkOverlap)
          Trie.subnetAgain) ∧
      Trie.sample.planAdd Trie.subnetAgain false =
        .ok (.replace Trie.subnet Trie.subnetAgain) ∧
      Trie.sample.planAdd Trie.subnetAgain true = .error .overlap ∧
      Trie.sample.entries.Perm [Trie.host, Trie.subnet] := by
  obtain ⟨plans, held, -⟩ := sideBySide_sample.agree
  have exchanged : Trie.sample.planAdd Trie.subnetAgain false =
      .ok (.replace Trie.subnet Trie.subnetAgain) := by decide
  have refused : Trie.sample.planAdd Trie.subnetAgain true = .error .overlap := by
    decide
  refine ⟨sideBySide_sample, fun checkOverlap => plans _ checkOverlap ?_,
    exchanged, refused, held⟩
  cases checkOverlap with
  | false => simp [exchanged]
  | true => simp [refused]

end PacketClassifier
