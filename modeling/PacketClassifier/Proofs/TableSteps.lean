import PacketClassifier.Proofs.Table
import PacketClassifier.Proofs.Trie.BestMatch

/-!
# What requests do to a table

A request turns the entries of a table over: some leave, at most one joins them, and the
others stay.  The one that joins has an identity that was never given out before, so the
ledger tells the entries apart whatever is asked of a table.  The other effects of a
request are on the ledger only: it registers the new entry, changes what is known of
entries that stay, and records notices about those that leave.
-/

namespace PacketClassifier

variable {entries before after others gone : List EntryRef} {joined : Option EntryRef}
  {ref old new : EntryRef} {ledger last : Ledger}

/-! ## Entries told apart by their identities -/

/-- The ledger knows the entries, and no two of them have the same identity. -/
structure Ledger.Tracks (ledger : Ledger) (entries : List EntryRef) : Prop where
  apart : (entries.map (·.id)).Nodup
  known : ∀ ref ∈ entries, ref.id < ledger.states.size

namespace Ledger.Tracks

theorem nil (ledger : Ledger) : ledger.Tracks [] where
  apart := List.nodup_nil
  known _ member := absurd member List.not_mem_nil

theorem nodup (tracks : ledger.Tracks entries) : entries.Nodup :=
  tracks.apart.of_map _

theorem mono (tracks : ledger.Tracks entries)
    (grown : ledger.states.size ≤ last.states.size) : last.Tracks entries where
  apart := tracks.apart
  known ref member := Nat.lt_of_lt_of_le (tracks.known ref member) grown

theorem perm (tracks : ledger.Tracks entries) (same : entries.Perm others) :
    ledger.Tracks others where
  apart := (same.map _).nodup_iff.mp tracks.apart
  known ref member := tracks.known ref (same.mem_iff.mpr member)

theorem sublist (tracks : ledger.Tracks entries) (fewer : others.Sublist entries) :
    ledger.Tracks others where
  apart := tracks.apart.sublist (fewer.map _)
  known ref member := tracks.known ref (fewer.subset member)

/-- An entry that the ledger did not know joins the others. -/
theorem cons (tracks : ledger.Tracks entries) (fresh : ledger.states.size ≤ ref.id)
    (known : ref.id < last.states.size) : last.Tracks (ref :: entries) where
  apart := by
    refine List.nodup_cons.mpr ⟨fun listed => ?_, tracks.apart⟩
    obtain ⟨other, member, same⟩ := List.mem_map.mp listed
    have older := tracks.known other member
    rw [show other.id = ref.id from same] at older
    omega
  known := by
    rintro other (_ | ⟨_, member⟩)
    · exact known
    · have := tracks.known other member
      omega

end Ledger.Tracks

/-! ## Turnovers -/

/-- The entries `gone` leave a list, at most one joins it, and the others stay. -/
def Turnover (before after gone : List EntryRef) (joined : Option EntryRef) : Prop :=
  ∃ kept, before.Perm (gone ++ kept) ∧ after.Perm (joined.toList ++ kept)

/-- To pick what is in a part of a list is to get the part. -/
theorem filter_mem_of_sublist (distinct : entries.Nodup) (part : gone.Sublist entries) :
    entries.filter (· ∈ gone) = gone := by
  induction part with
  | slnil => rfl
  | @cons others rest skipped part ih =>
      obtain ⟨absent, restDistinct⟩ := List.nodup_cons.mp distinct
      rw [List.filter_cons_of_neg, ih restDistinct]
      simpa using fun member => absent (part.subset member)
  | @cons_cons others rest first part ih =>
      obtain ⟨absent, restDistinct⟩ := List.nodup_cons.mp distinct
      rw [List.filter_cons_of_pos (by simp)]
      congr 1
      rw [← ih restDistinct]
      apply List.filter_congr
      intro ref member
      have different : ref ≠ first := fun same => absent (same ▸ member)
      simp [different, ih restDistinct]

namespace Turnover

theorem refl (entries : List EntryRef) : Turnover entries entries [] none :=
  ⟨entries, List.Perm.refl _, List.Perm.refl _⟩

theorem join (same : after.Perm (ref :: before)) : Turnover before after [] (some ref) :=
  ⟨before, List.Perm.refl _, same⟩

theorem exchange (distinct : entries.Nodup) (member : old ∈ entries) :
    Turnover entries (entries.map (old.exchange new)) [old] (some new) :=
  ⟨entries.erase old, List.perm_cons_erase member,
    map_exchange_perm distinct member⟩

theorem leave (distinct : entries.Nodup) (part : gone.Sublist entries) :
    Turnover entries (entries.filter (· ∉ gone)) gone none := by
  refine ⟨_, ?_, List.Perm.refl _⟩
  have split := List.filter_append_perm (fun ref => decide (ref ∈ gone)) entries
  rw [filter_mem_of_sublist distinct part] at split
  simpa using split.symm

theorem of_perm (turnover : Turnover before others gone joined)
    (same : after.Perm others) : Turnover before after gone joined := by
  obtain ⟨kept, left, stayed⟩ := turnover
  exact ⟨kept, left, same.trans stayed⟩

/-- A turnover of a part is one of the whole. -/
theorem frame (turnover : Turnover before after gone joined)
    (front back : List EntryRef) :
    Turnover (front ++ before ++ back) (front ++ after ++ back) gone joined := by
  obtain ⟨kept, left, stayed⟩ := turnover
  have moved : ∀ moving : List EntryRef,
      (front ++ (moving ++ kept) ++ back).Perm (moving ++ (front ++ kept ++ back)) := by
    intro moving
    simp only [← List.append_assoc]
    exact (List.perm_append_comm.append_right kept).append_right back
  refine ⟨front ++ kept ++ back, ?_, ?_⟩
  · exact ((left.append_left front).append_right back).trans (moved gone)
  · exact ((stayed.append_left front).append_right back).trans (moved joined.toList)

/-- Who leaves later leaves as well. -/
theorem trans_leave {later : List EntryRef} (first : Turnover before after gone none)
    (second : Turnover after others later none) :
    Turnover before others (gone ++ later) none := by
  obtain ⟨kept, left, stayed⟩ := first
  obtain ⟨rest, leftLater, stayedLater⟩ := second
  refine ⟨rest, left.trans ?_, stayedLater⟩
  rw [List.append_assoc]
  exact (stayed.symm.trans leftLater).append_left gone

theorem mem_cases (turnover : Turnover before after gone joined) (member : ref ∈ after) :
    joined = some ref ∨ ref ∈ before := by
  obtain ⟨kept, left, stayed⟩ := turnover
  rcases List.mem_append.mp (stayed.mem_iff.mp member) with new | old
  · exact Or.inl (Option.mem_toList.mp new)
  · exact Or.inr (left.mem_iff.mpr (List.mem_append_right gone old))

/-- Those that leave are those that were there and are not any more. -/
theorem mem_gone_iff (turnover : Turnover before after gone joined)
    (tracked : ledger.Tracks before)
    (fresh : ∀ ref ∈ joined, ledger.states.size ≤ ref.id) :
    ref ∈ gone ↔ ref ∈ before ∧ ref ∉ after := by
  obtain ⟨kept, parts, stayed⟩ := turnover
  have apart : List.Disjoint gone kept :=
    (List.nodup_append'.mp (parts.nodup_iff.mp tracked.nodup)).2.2
  rw [parts.mem_iff, stayed.mem_iff, List.mem_append, List.mem_append, Option.mem_toList]
  constructor
  · intro left
    refine ⟨Or.inl left, ?_⟩
    rintro (new | stays)
    · have known := tracked.known ref (parts.mem_iff.mpr (List.mem_append_left kept left))
      have := fresh ref new
      omega
    · exact apart left stays
  · rintro ⟨left | stays, absent⟩
    · exact left
    · exact absurd (Or.inr stays) absent

theorem filter_not_mem_perm (turnover : Turnover before after gone joined)
    (tracked : ledger.Tracks before)
    (fresh : ∀ ref ∈ joined, ledger.states.size ≤ ref.id) :
    (before.filter (· ∉ after)).Perm gone := by
  have distinct : gone.Nodup := by
    obtain ⟨kept, parts, -⟩ := turnover
    exact (List.nodup_append'.mp (parts.nodup_iff.mp tracked.nodup)).1
  refine (List.perm_ext_iff_of_nodup (tracked.nodup.filter _) distinct).mpr fun ref => ?_
  rw [turnover.mem_gone_iff tracked fresh, List.mem_filter, decide_eq_true_eq]

/-- Entries stay apart if the one that joins has an identity of its own. -/
theorem tracks (turnover : Turnover before after gone joined)
    (tracked : ledger.Tracks before) (grown : ledger.states.size ≤ last.states.size)
    (issued : ∀ ref ∈ joined,
      ledger.states.size ≤ ref.id ∧ ref.id < last.states.size) :
    last.Tracks after := by
  obtain ⟨kept, left, stayed⟩ := turnover
  have rest : ledger.Tracks kept :=
    (tracked.perm left).sublist (List.sublist_append_right gone kept)
  refine Ledger.Tracks.perm ?_ stayed.symm
  cases joined with
  | none => exact rest.mono grown
  | some ref =>
      obtain ⟨fresh, known⟩ := issued ref rfl
      exact rest.cons fresh known

end Turnover

/-! ## Searches -/

/-- A search has a right answer, in a matcher of either kind. -/
theorem Matcher.WellFormed.find?_answers {matcher : Matcher} (formed : matcher.WellFormed)
    (packet : Packet) : Answers matcher.entries packet (matcher.find? packet) := by
  cases matcher with
  | trie tree =>
      obtain ⟨installed, reached⟩ := formed
      exact (reached.find?_answers packet).perm reached.entries_perm.symm
  | list sequence => exact PriorityList.find?_answers formed.sorted packet

theorem Matcher.WellFormed.mem_of_find? {matcher : Matcher} (formed : matcher.WellFormed)
    {packet : Packet} (found : matcher.find? packet = some ref) :
    ref ∈ matcher.entries := by
  have answers := formed.find?_answers packet
  rw [found] at answers
  exact answers.1

/-! ## Ledgers -/

namespace Ledger

@[simp]
theorem size_register (ledger : Ledger) (entry : Entry) :
    (ledger.register entry).2.states.size = ledger.states.size + 1 :=
  Array.size_push _

/-- A notice that nobody is told of is none. -/
theorem dismiss_unreported (ledger : Ledger) (ref : EntryRef) :
    ledger.dismiss .unreported ref = ledger := by
  simp [dismiss, Entry.removalNotice?]

@[simp]
theorem size_updateAll (ledger : Ledger) (refs : List EntryRef)
    (change : EntryState → EntryState) :
    (ledger.updateAll refs change).states.size = ledger.states.size := by
  induction refs generalizing ledger with
  | nil => rfl
  | cons first rest ih =>
      exact (ih (ledger.update first change)).trans (size_update ledger first change)

/-- Several updates change the states of their entries only. -/
theorem state_updateAll_of_not_mem {refs : List EntryRef} {id : Nat}
    (absent : id ∉ refs.map (·.id)) (ledger : Ledger)
    (change : EntryState → EntryState) :
    (ledger.updateAll refs change).state id = ledger.state id := by
  induction refs generalizing ledger with
  | nil => rfl
  | cons first rest ih =>
      obtain ⟨different, absentRest⟩ : id ≠ first.id ∧ id ∉ rest.map (·.id) := by
        simpa using absent
      exact (ih absentRest (ledger.update first change)).trans
        (state_update_of_ne different ledger change)

/-- Of several updates, an entry gets its own, as no other has its identity. -/
theorem state_updateAll_of_mem {refs : List EntryRef} (tracks : ledger.Tracks refs)
    (member : ref ∈ refs) (change : EntryState → EntryState) :
    (ledger.updateAll refs change).state ref.id = change (ledger.state ref.id) := by
  induction refs generalizing ledger with
  | nil => exact absurd member List.not_mem_nil
  | cons first rest ih =>
      obtain ⟨absent, -⟩ := List.nodup_cons.mp tracks.apart
      rcases List.mem_cons.mp member with rfl | later
      · exact (state_updateAll_of_not_mem absent (ledger.update ref change) change).trans
          (state_update_self (tracks.known ref member) change)
      · have different : ref.id ≠ first.id := fun same =>
          absent (List.mem_map.mpr ⟨ref, later, same⟩)
        have others : (ledger.update first change).Tracks rest :=
          (tracks.sublist (List.sublist_cons_self first rest)).mono
            (Nat.le_of_eq (size_update ledger first change).symm)
        refine (ih others later).trans ?_
        rw [state_update_of_ne different]

/-- What no update changes in a state, several updates do not change either. -/
theorem updateAll_keeps {α : Type} {part : EntryState → α}
    {change : EntryState → EntryState} (keeps : ∀ state, part (change state) = part state)
    (ledger : Ledger) (refs : List EntryRef) (id : Nat) :
    part ((ledger.updateAll refs change).state id) = part (ledger.state id) := by
  induction refs generalizing ledger with
  | nil => rfl
  | cons first rest ih =>
      refine (ih (ledger.update first change)).trans ?_
      rcases state_update_cases ledger first change id with same | changed
      · rw [same]
      · rw [changed, keeps]

/-- The notices that are due when entries go away. -/
def due (ledger : Ledger) (reason : RemovalReason) (refs : List EntryRef) :
    List (EntryRef × RemovalNotice) :=
  refs.filterMap (fun ref => ((ledger.entry ref).removalNotice? reason).map (ref, ·))

@[simp]
theorem notices_dismissAll (ledger : Ledger) (reason : RemovalReason)
    (refs : List EntryRef) :
    (ledger.dismissAll reason refs).notices = ledger.notices ++ ledger.due reason refs := by
  induction refs generalizing ledger with
  | nil => simp [dismissAll, due]
  | cons first rest ih =>
      have later : ((ledger.dismiss reason first).dismissAll reason rest).notices =
          (ledger.dismiss reason first).notices ++ ledger.due reason rest :=
        ih (ledger.dismiss reason first)
      refine later.trans ?_
      rw [dismiss, due, due, List.filterMap_cons]
      cases (ledger.entry first).removalNotice? reason <;> simp

end Ledger

/-! ## Requests to a table -/

/-- The entries that a removal is about. -/
def Matcher.targeted (matcher : Matcher) (ledger : Ledger) :
    RemovalTarget → List EntryRef
  | .only ref => if ref ∈ matcher.entries then [ref] else []
  | .selected query => matcher.selected ledger query

theorem Matcher.targeted_sublist (matcher : Matcher) (ledger : Ledger)
    (target : RemovalTarget) :
    (matcher.targeted ledger target).Sublist matcher.entries := by
  cases target with
  | only ref =>
      by_cases installed : ref ∈ matcher.entries
      · simp [targeted, installed]
      · simp [targeted, installed]
  | selected query => exact List.filter_sublist

namespace Table

variable {table left : Table} {exists? : GroupId → Bool} {template : Entry}
  {outcome : AddOutcome} {checkOverlap reset : Bool} {reason : RemovalReason}

/-- The ledger when a new entry of a table has been registered. -/
def enter (table : Table) (ledger : Ledger) (entry : Entry) : Ledger :=
  (ledger.register entry).2.update (ledger.register entry).1 (·.attach table.id)

@[simp]
theorem size_enter (table : Table) (ledger : Ledger) (entry : Entry) :
    (table.enter ledger entry).states.size = ledger.states.size + 1 := by
  rw [enter, Ledger.size_update, Ledger.size_register]

theorem state_enter_of_lt {id : Nat} (known : id < ledger.states.size) (table : Table)
    (entry : Entry) : (table.enter ledger entry).state id = ledger.state id := by
  rw [enter, Ledger.state_update_of_ne, Ledger.state_register_of_lt known]
  exact Nat.ne_of_lt known

@[simp]
theorem state_enter_self (table : Table) (ledger : Ledger) (entry : Entry) :
    (table.enter ledger entry).state ledger.states.size =
      entry.toEntryState.attach table.id := by
  have read : (ledger.register entry).2.state ledger.states.size =
      entry.toEntryState :=
    congrArg Entry.toEntryState (Ledger.entry_register ledger entry)
  rw [enter, ← read]
  exact Ledger.state_update_self (by simp [Ledger.register]) _

/--
What a request makes of a table: entries `gone` leave it, and the entry `joined`, if any,
comes with a new identity.  Of what was known of entries of other tables nothing changes.
-/
structure Advance (table : Table) (ledger : Ledger) (left : Table) (last : Ledger)
    (gone : List EntryRef) (joined : Option EntryRef) : Prop where
  id : left.id = table.id
  formed : left.matcher.WellFormed
  part : gone.Sublist table.matcher.entries
  turnover : Turnover table.matcher.entries left.matcher.entries gone joined
  grown : ledger.states.size ≤ last.states.size
  issued : ∀ ref ∈ joined, ledger.states.size ≤ ref.id ∧ ref.id < last.states.size
  frame : ∀ id < ledger.states.size, id ∉ table.matcher.entries.map (·.id) →
    last.state id = ledger.state id

namespace Advance

/-- A request that is only about what the ledger knows moves no entry. -/
theorem still (formed : table.matcher.WellFormed)
    (size : last.states.size = ledger.states.size)
    (frame : ∀ id, id ∉ table.matcher.entries.map (·.id) →
      last.state id = ledger.state id) :
    table.Advance ledger table last [] none where
  id := rfl
  formed := formed
  part := List.nil_sublist _
  turnover := Turnover.refl _
  grown := Nat.le_of_eq size.symm
  issued _ member := absurd member (by simp)
  frame id _ := frame id

theorem refl (formed : table.matcher.WellFormed) (ledger : Ledger) :
    table.Advance ledger table ledger [] none :=
  still formed rfl (fun _ _ => rfl)

/-- A modification of installed entries moves none of them. -/
theorem updateAll (formed : table.matcher.WellFormed) (ledger : Ledger)
    {refs : List EntryRef} (part : refs.Sublist table.matcher.entries)
    (change : EntryState → EntryState) :
    table.Advance ledger table (ledger.updateAll refs change) [] none :=
  still formed (Ledger.size_updateAll ledger refs change) (fun _ absent =>
    Ledger.state_updateAll_of_not_mem
      (fun listed => absent ((part.map _).subset listed)) ledger change)

theorem tracks (advance : table.Advance ledger left last gone joined)
    (tracked : ledger.Tracks table.matcher.entries) :
    last.Tracks left.matcher.entries :=
  advance.turnover.tracks tracked advance.grown advance.issued

/-- Those that leave do so in the order in which they were there. -/
theorem gone_eq (advance : table.Advance ledger left last gone joined)
    (tracked : ledger.Tracks table.matcher.entries) :
    table.matcher.entries.filter (· ∉ left.matcher.entries) = gone := by
  rw [← filter_mem_of_sublist tracked.nodup advance.part]
  apply List.filter_congr
  intro ref member
  rw [decide_eq_decide, advance.turnover.mem_gone_iff tracked fun ref new =>
    (advance.issued ref new).1]
  exact (and_iff_right member).symm

end Advance

/--
An accepted entry is registered.  It joins the others, or it takes the place of an entry
of the same priority and conjunction, with the counters of that unless they are reset.
-/
theorem add_cases (formed : table.matcher.WellFormed)
    (added : table.add ledger exists? template checkOverlap reset =
      .ok (outcome, left, last)) :
    (outcome = .added ∧ left.count = table.count + 1 ∧
      last = table.enter ledger template ∧
      table.Advance ledger left last [] (some (ledger.register template).1)) ∨
    ∃ old ∈ table.matcher.entries,
      outcome = .replaced ∧ left.count = table.count ∧
      (last = if reset then table.enter ledger template else
        (table.enter ledger template).update (ledger.register template).1
          (·.fold ((table.enter ledger template).entry old).counters)) ∧
      table.Advance ledger left last [old] (some (ledger.register template).1) := by
  unfold add at added
  obtain ⟨-, -, added⟩ := exists_of_bind_eq_ok added
  obtain ⟨change, planned, added⟩ := exists_of_bind_eq_ok added
  obtain ⟨kept, carried⟩ := formed.apply_planAdd planned
  have opened : ∀ last : Ledger, last.states.size = ledger.states.size + 1 →
      ledger.states.size ≤ last.states.size ∧
        ∀ ref ∈ some (ledger.register template).1,
          ledger.states.size ≤ ref.id ∧ ref.id < last.states.size := by
    intro last size
    refine ⟨by omega, ?_⟩
    rintro ref ⟨⟩
    exact ⟨Nat.le_refl _, by simp [size, Ledger.register]⟩
  have older : ∀ id < ledger.states.size,
      id ∉ table.matcher.entries.map (·.id) →
        (table.enter ledger template).state id = ledger.state id :=
    fun id known _ => state_enter_of_lt known table template
  rcases formed.planAdd_cases planned with ⟨old, member, rfl⟩ | rfl
  · simp only [Ledger.dismiss_unreported] at added
    cases added
    have size : (if reset then table.enter ledger template else
        (table.enter ledger template).update (ledger.register template).1
          (·.fold ((table.enter ledger template).entry old).counters)).states.size =
        ledger.states.size + 1 := by
      cases reset <;> simp
    obtain ⟨grown, issued⟩ := opened _ size
    refine Or.inr ⟨old, member, rfl, rfl, rfl, rfl, kept,
      List.singleton_sublist.mpr member,
      (Turnover.exchange formed.toldApart.nodup member).of_perm carried, grown, issued, ?_⟩
    intro id known absent
    have different : id ≠ (ledger.register template).1.id := Nat.ne_of_lt known
    cases reset with
    | true => exact older id known absent
    | false =>
        exact (Ledger.state_update_of_ne different _ _).trans (older id known absent)
  · cases added
    obtain ⟨grown, issued⟩ := opened _ (size_enter table ledger template)
    exact Or.inl ⟨rfl, rfl, rfl, rfl, kept, List.nil_sublist _,
      Turnover.join carried, grown, issued, older⟩

/-- A modification changes the states of the selected entries, where entries can change. -/
theorem modify_spec {strictness : Strictness} {count : Nat}
    (modified : table.modify ledger exists? template strictness reset =
      .ok (count, last)) :
    table.matcher.supportsRemoval = true ∧
      template.instructions.checkGroups exists? = .ok () ∧
      count = (table.matcher.selected ledger { template, strictness }).length ∧
      last = ledger.updateAll (table.matcher.selected ledger { template, strictness })
        (·.replaceInstructions template.instructions reset) := by
  unfold modify at modified
  obtain ⟨_, accepted, modified⟩ := exists_of_bind_eq_ok modified
  obtain ⟨chosen, planned, modified⟩ := exists_of_bind_eq_ok modified
  obtain ⟨rfl, rfl⟩ := Prod.mk.inj (Except.ok.inj modified)
  unfold Matcher.planModify at planned
  split at planned
  · exact absurd planned (by simp)
  · rename_i sequence same
    obtain rfl := Except.ok.inj planned
    exact ⟨by rw [same]; rfl, eq_ok_of_mapError accepted, rfl, rfl⟩

/-- A removal takes out the entries that it is about, where entries can be given up. -/
theorem remove_spec (formed : table.matcher.WellFormed) {target : RemovalTarget}
    {count : Nat} (removed : table.remove ledger target reason = .ok (count, left, last)) :
    table.matcher.supportsRemoval = true ∧
      count = (table.matcher.targeted ledger target).length ∧
      left.count = table.count - count ∧
      left.matcher.entries = table.matcher.entries.filter
        (· ∉ table.matcher.targeted ledger target) ∧
      last = ledger.dismissAll reason (table.matcher.targeted ledger target) ∧
      table.Advance ledger left last (table.matcher.targeted ledger target) none := by
  rcases table with ⟨id, matcher, size⟩
  cases matcher with
  | trie tree => cases removed
  | list sequence =>
      have planned : (Matcher.list sequence).planRemove ledger target =
          .ok (.remove ((Matcher.list sequence).targeted ledger target)) := by
        cases target <;> rfl
      have part := Matcher.targeted_sublist (.list sequence) ledger target
      simp only [remove, planned, bind, Except.bind] at removed
      split at removed
      · rename_i none
        obtain ⟨rfl, rfl, rfl⟩ : 0 = count ∧ _ = left ∧ ledger = last := by
          simpa only [Prod.mk.injEq] using Except.ok.inj removed
        have nobody : (Matcher.list sequence).targeted ledger target = [] :=
          List.isEmpty_iff.mp none
        simp only [nobody]
        exact ⟨rfl, rfl, rfl, by simp, rfl, Advance.refl formed ledger⟩
      · obtain ⟨rfl, rfl, rfl⟩ : _ = count ∧ _ = left ∧ _ = last := by
          simpa only [Prod.mk.injEq] using Except.ok.inj removed
        refine ⟨rfl, rfl, rfl, rfl, rfl, rfl, (formed.apply_planRemove planned).1,
          part, Turnover.leave formed.toldApart.nodup part, ?_, by simp, ?_⟩
        · exact Nat.le_of_eq (by rw [Ledger.states_dismissAll])
        · exact fun id _ _ => Ledger.state_dismissAll ..

/-- Every entry leaves a table that is cleared. -/
theorem clear_spec (formed : table.matcher.WellFormed) (ledger : Ledger)
    (reason : RemovalReason) :
    (table.clear ledger reason).2.1.matcher.entries = [] ∧
      (table.clear ledger reason).2.2 =
        ledger.dismissAll reason table.matcher.entries ∧
      table.Advance ledger (table.clear ledger reason).2.1
        (table.clear ledger reason).2.2 table.matcher.entries none := by
  by_cases none : table.matcher.entries.isEmpty = true
  · have nobody : table.matcher.entries = [] := List.isEmpty_iff.mp none
    have unchanged : table.clear ledger reason = (0, table, ledger) := if_pos none
    rw [unchanged, nobody]
    exact ⟨rfl, rfl, Advance.refl formed ledger⟩
  · obtain ⟨kept, emptied⟩ := formed.apply_clear
    rw [show table.clear ledger reason = (table.matcher.entries.length,
      { table with matcher := table.matcher.apply .clear, count := 0 },
      ledger.dismissAll reason table.matcher.entries) from if_neg none]
    refine ⟨emptied, rfl, rfl, kept, List.Sublist.refl _, ⟨[], ?_, ?_⟩, ?_, by simp, ?_⟩
    · rw [List.append_nil]
    · exact List.Perm.of_eq emptied
    · exact Nat.le_of_eq (by rw [Ledger.states_dismissAll])
    · exact fun id _ _ => Ledger.state_dismissAll ..

/-- A packet is counted on the entry that it hits, if any. -/
theorem classify_eq (table : Table) (ledger : Ledger) (packet : Packet)
    (thread : ThreadId) (bytes : UInt64) :
    table.classify ledger packet thread bytes =
      (table.find? packet, (table.find? packet).elim ledger
        (fun hit => ledger.update hit (·.hit thread bytes))) := by
  unfold classify
  cases table.find? packet <;> rfl

end Table

end PacketClassifier
