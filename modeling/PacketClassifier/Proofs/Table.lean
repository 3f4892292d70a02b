import PacketClassifier.Proofs.ListMatcher
import PacketClassifier.Proofs.Outcome
import PacketClassifier.Proofs.Trie.Runs
import PacketClassifier.Table

/-!
# What tables hold

A table bears a property of instructions if its matcher is well-formed and the ledger
knows its entries, each with instructions of that property.  Every request keeps the
property that gives no other instructions to an entry, wherever it is installed.
-/

namespace PacketClassifier

variable {matcher : Matcher} {entry : EntryRef} {change : Change}
  {checkOverlap : Bool} {ledger last : Ledger}

/-! ## Matchers of either kind -/

/-- The invariant of matchers. -/
def Matcher.WellFormed : Matcher → Prop
  | .trie tree => ∃ installed, tree.Reaches installed
  | .list sequence => sequence.WellFormed

namespace Matcher

theorem wellFormed_empty (kind : MatcherKind) :
    (Matcher.empty kind).WellFormed := by
  cases kind with
  | trie => exact ⟨[], .empty⟩
  | list => exact PriorityList.WellFormed.empty

/-- The installed entries are told apart, in a matcher of either kind. -/
theorem WellFormed.toldApart (formed : matcher.WellFormed) :
    ToldApart matcher.entries := by
  cases matcher with
  | trie tree =>
      obtain ⟨installed, reached⟩ := formed
      exact reached.apart.perm reached.entries_perm.symm
  | list sequence => exact PriorityList.WellFormed.apart formed

/-- A matcher knows how many entries it has. -/
theorem WellFormed.size_eq (formed : matcher.WellFormed) :
    matcher.size = matcher.entries.length := by
  cases matcher with
  | trie tree =>
      obtain ⟨installed, reached⟩ := formed
      obtain ⟨chain, treeFormed, -⟩ := reached.formed
      exact treeFormed.size.trans treeFormed.entries_perm.length_eq.symm
  | list sequence => rfl

/-- What is planned on a matcher would be planned on a list of its entries. -/
theorem WellFormed.planAdd_list (formed : matcher.WellFormed)
    (planned : matcher.planAdd entry checkOverlap = .ok change) :
    (PriorityList.mk matcher.entries).planAdd entry checkOverlap = .ok change := by
  cases matcher with
  | trie tree =>
      obtain ⟨installed, reached⟩ := formed
      obtain ⟨chain, treeFormed, -⟩ := reached.formed
      have listed : (PriorityList.mk (tree.inventory chain)).planAdd entry checkOverlap =
          (PriorityList.mk tree.entries).planAdd entry checkOverlap :=
        PriorityList.planAdd_congr treeFormed.apart treeFormed.entries_perm.symm
      exact listed.symm.trans (treeFormed.planned_list planned).1
  | list sequence => exact planned

/-- A planned entry is installed, in the place of an installed one if that is alike. -/
theorem WellFormed.planAdd_cases (formed : matcher.WellFormed)
    (planned : matcher.planAdd entry checkOverlap = .ok change) :
    (∃ old ∈ matcher.entries, change = .replace old entry) ∨
      change = .insert entry := by
  rcases PriorityList.planAdd_cases (formed.planAdd_list planned) with
    ⟨old, member, -, rfl⟩ | ⟨-, rfl⟩
  · exact Or.inl ⟨old, member, rfl⟩
  · exact Or.inr rfl

/-- A planned entry keeps a matcher well-formed, and does to the entries what it says. -/
theorem WellFormed.apply_planAdd (formed : matcher.WellFormed)
    (planned : matcher.planAdd entry checkOverlap = .ok change) :
    (matcher.apply change).WellFormed ∧
      (matcher.apply change).entries.Perm (change.carryOut matcher.entries) := by
  cases matcher with
  | trie tree =>
      obtain ⟨installed, reached⟩ := formed
      have plans : tree.Plans change := .add planned
      exact ⟨⟨_, reached.step plans⟩, reached.entries_apply plans⟩
  | list sequence =>
      have fits := PriorityList.fits_of_planAdd planned
      exact ⟨PriorityList.WellFormed.apply formed fits,
        PriorityList.WellFormed.carryOut_perm formed change⟩

theorem WellFormed.mem_apply_planAdd (formed : matcher.WellFormed)
    (planned : matcher.planAdd entry checkOverlap = .ok change)
    {ref : EntryRef} (member : ref ∈ (matcher.apply change).entries) :
    ref = entry ∨ ref ∈ matcher.entries := by
  have carried := (formed.apply_planAdd planned).2.mem_iff.mp member
  rcases formed.planAdd_cases planned with ⟨old, -, rfl⟩ | rfl
  · obtain ⟨before, listed, rfl⟩ := List.mem_map.mp carried
    by_cases same : before = old
    · exact Or.inl (same ▸ EntryRef.exchange_self)
    · rw [EntryRef.exchange_of_ne same]
      exact Or.inr listed
  · exact List.mem_cons.mp carried

/-- A planned removal keeps a matcher well-formed and installs nothing. -/
theorem WellFormed.apply_planRemove (formed : matcher.WellFormed)
    {target : RemovalTarget}
    (planned : matcher.planRemove ledger target = .ok change) :
    (matcher.apply change).WellFormed ∧
      (matcher.apply change).entries ⊆ matcher.entries := by
  cases matcher with
  | trie tree => cases planned
  | list sequence =>
      have removal : ∃ gone, change = .remove gone := by
        cases target with
        | only ref => exact ⟨_, (Except.ok.inj planned).symm⟩
        | selected query => exact ⟨_, (Except.ok.inj planned).symm⟩
      obtain ⟨gone, rfl⟩ := removal
      exact ⟨PriorityList.WellFormed.apply formed trivial, List.filter_subset_self _⟩

theorem WellFormed.apply_clear (formed : matcher.WellFormed) :
    (matcher.apply .clear).WellFormed ∧ (matcher.apply .clear).entries = [] := by
  cases matcher with
  | trie tree =>
      obtain ⟨installed, reached⟩ := formed
      exact ⟨⟨_, reached.step .clear⟩,
        List.perm_nil.mp (reached.entries_apply .clear)⟩
  | list sequence => exact ⟨PriorityList.WellFormed.apply formed trivial, rfl⟩

end Matcher

/-! ## Ledgers that give out instructions -/

namespace Ledger

variable {valid : InstructionSet → Prop}

/--
Every entry that is known keeps its instructions or is given others, which have the
property.
-/
structure Turns (valid : InstructionSet → Prop) (before after : Ledger) : Prop where
  known : before.states.size ≤ after.states.size
  turned : ∀ id < before.states.size,
    (after.state id).instructions = (before.state id).instructions ∨
      valid (after.state id).instructions

theorem Turns.refl (ledger : Ledger) : ledger.Turns valid ledger where
  known := Nat.le_refl _
  turned _ _ := Or.inl rfl

theorem Turns.trans {first second third : Ledger}
    (left : first.Turns valid second) (right : second.Turns valid third) :
    first.Turns valid third where
  known := Nat.le_trans left.known right.known
  turned id known := by
    rcases right.turned id (Nat.lt_of_lt_of_le known left.known) with same | given
    · rw [same]
      exact left.turned id known
    · exact Or.inr given

@[simp]
theorem size_update (ledger : Ledger) (ref : EntryRef)
    (change : EntryState → EntryState) :
    (ledger.update ref change).states.size = ledger.states.size := by
  simp [update]

/-- An update changes a single state, and none if the entry is not known. -/
theorem state_update_cases (ledger : Ledger) (ref : EntryRef)
    (change : EntryState → EntryState) (id : Nat) :
    (ledger.update ref change).state id = ledger.state id ∨
      (ledger.update ref change).state id = change (ledger.state id) := by
  by_cases other : id = ref.id
  · subst other
    by_cases known : ref.id < ledger.states.size
    · exact Or.inr (state_update_self known change)
    · exact Or.inl (by simp [state, update, known])
  · exact Or.inl (state_update_of_ne other ledger change)

theorem instructions_update {change : EntryState → EntryState}
    (keeps : ∀ state, (change state).instructions = state.instructions)
    (ledger : Ledger) (ref : EntryRef) (id : Nat) :
    ((ledger.update ref change).state id).instructions =
      (ledger.state id).instructions := by
  rcases state_update_cases ledger ref change id with same | changed
  · rw [same]
  · rw [changed, keeps]

theorem turns_updateAll (change : EntryState → EntryState)
    (gives : ∀ state, valid (change state).instructions) (ledger : Ledger)
    (refs : List EntryRef) :
    ledger.Turns valid (ledger.updateAll refs change) := by
  induction refs generalizing ledger with
  | nil => exact .refl ledger
  | cons first rest ih =>
      refine Turns.trans ⟨?_, fun id _ => ?_⟩ (ih (ledger.update first change))
      · exact Nat.le_of_eq (size_update ledger first change).symm
      · rcases state_update_cases ledger first change id with same | changed
        · exact Or.inl (by rw [same])
        · exact Or.inr (changed ▸ gives _)

/-- A packet that is counted leaves every entry its instructions. -/
theorem instructions_hit (ledger : Ledger) (hit : EntryRef) (thread : ThreadId)
    (bytes : UInt64) (id : Nat) :
    ((ledger.update hit (·.hit thread bytes)).state id).instructions =
      (ledger.state id).instructions := by
  have hits : ∀ state : EntryState,
      (state.hit thread bytes).instructions = state.instructions := fun _ => rfl
  exact instructions_update hits ledger hit id

theorem turns_hit (ledger : Ledger) (hit : EntryRef) (thread : ThreadId)
    (bytes : UInt64) : ledger.Turns valid (ledger.update hit (·.hit thread bytes)) where
  known := Nat.le_of_eq (size_update ..).symm
  turned id _ := Or.inl (instructions_hit ledger hit thread bytes id)

@[simp]
theorem states_dismissAll (ledger : Ledger) (reason : RemovalReason)
    (refs : List EntryRef) :
    (ledger.dismissAll reason refs).states = ledger.states := by
  induction refs generalizing ledger with
  | nil => rfl
  | cons first rest ih => exact ih (ledger.dismiss reason first)

theorem turns_dismissAll (ledger : Ledger) (reason : RemovalReason)
    (refs : List EntryRef) :
    ledger.Turns valid (ledger.dismissAll reason refs) where
  known := Nat.le_of_eq (by rw [states_dismissAll])
  turned _ _ := Or.inl (by rw [state_dismissAll])

end Ledger

/-! ## Requests to a table -/

/-- The check of groups accepts the instructions whose groups exist. -/
theorem InstructionSet.checkGroups_eq_ok_iff {set : InstructionSet}
    {exists? : GroupId → Bool} :
    set.checkGroups exists? = .ok () ↔
      ∀ group, set.HasGroup group → exists? group = true := by
  have named : ∀ {group}, group ∈ set.groups ↔ set.HasGroup group := by
    intro group
    rw [groups, List.mem_filterMap, HasGroup]
    constructor
    · rintro ⟨action, member, found⟩
      cases action <;> simp_all
    · intro member
      exact ⟨_, member, rfl⟩
  unfold checkGroups
  split
  · rename_i group found
    have missing : exists? group = false := by
      simpa using List.find?_some found
    have uses := named.mp (List.mem_of_find?_eq_some found)
    simp only [reduceCtorEq, false_iff, not_forall]
    exact ⟨group, uses, by simp [missing]⟩
  · rename_i none
    simp only [true_iff]
    intro group uses
    simpa using List.find?_eq_none.mp none group (named.mpr uses)

namespace Table

variable {table after : Table} {exists? : GroupId → Bool} {template : Entry}
  {outcome : AddOutcome} {reset : Bool} {valid : InstructionSet → Prop}

/--
An accepted entry is registered and then installed as planned.  No other entry gets
different instructions.
-/
theorem add_spec
    (added : table.add ledger exists? template checkOverlap reset =
      .ok (outcome, after, last)) :
    template.instructions.checkGroups exists? = .ok () ∧
      last.states.size = ledger.states.size + 1 ∧
      (∀ id, (last.state id).instructions =
        ((ledger.register template).2.state id).instructions) ∧
      ∃ change,
        table.matcher.planAdd (ledger.register template).1 checkOverlap =
            .ok change ∧
          after.matcher = table.matcher.apply change := by
  have attaches : ∀ state : EntryState,
      (state.attach table.id).instructions = state.instructions := fun _ => rfl
  have folds : ∀ (counters : Counters) (state : EntryState),
      (state.fold counters).instructions = state.instructions := fun _ _ => rfl
  unfold add at added
  obtain ⟨_, checked, added⟩ := exists_of_bind_eq_ok added
  obtain ⟨change, planned, added⟩ := exists_of_bind_eq_ok added
  refine ⟨eq_ok_of_mapError checked, ?_⟩
  split at added
  · rename_i old new
    cases added
    refine ⟨?_, fun id => ?_, _, planned, rfl⟩
    · cases reset <;> simp [Ledger.dismiss]
    · rw [Ledger.state_dismiss]
      split
      · exact Ledger.instructions_update attaches _ _ id
      · exact (Ledger.instructions_update (folds _) _ _ id).trans
          (Ledger.instructions_update attaches _ _ id)
  · cases added
    refine ⟨?_, fun id => ?_, _, planned, rfl⟩
    · rw [Ledger.size_update, Array.size_push]
    · exact Ledger.instructions_update attaches _ _ id

/-- What a table holds is well-formed and known, with instructions of the property. -/
structure Bears (valid : InstructionSet → Prop) (ledger : Ledger) (table : Table) :
    Prop where
  formed : table.matcher.WellFormed
  known : ∀ ref ∈ table.matcher.entries, ref.id < ledger.states.size
  valid : ∀ ref ∈ table.matcher.entries, valid (ledger.state ref.id).instructions

namespace Bears

theorem mono (bears : table.Bears valid ledger) {wider : InstructionSet → Prop}
    (weaker : ∀ set, valid set → wider set) : table.Bears wider ledger where
  formed := bears.formed
  known := bears.known
  valid ref member := weaker _ (bears.valid ref member)

theorem turn (bears : table.Bears valid ledger) (turns : ledger.Turns valid last) :
    table.Bears valid last where
  formed := bears.formed
  known ref member := Nat.lt_of_lt_of_le (bears.known ref member) turns.known
  valid ref member := by
    rcases turns.turned ref.id (bears.known ref member) with same | given
    · rw [same]
      exact bears.valid ref member
    · exact given

/-- An accepted entry brings its own instructions and leaves the others theirs. -/
theorem add (bears : table.Bears valid ledger)
    (checked : template.instructions.checkGroups exists? = .ok () →
      valid template.instructions)
    (added : table.add ledger exists? template checkOverlap reset =
      .ok (outcome, after, last)) :
    after.Bears valid last ∧ ledger.Turns valid last := by
  obtain ⟨accepted, size, instructions, change, planned, applied⟩ := add_spec added
  have turns : ledger.Turns valid last := by
    refine ⟨by omega, fun id known => Or.inl ?_⟩
    rw [instructions, Ledger.state_register_of_lt known]
  refine ⟨⟨?_, ?_, ?_⟩, turns⟩
  · rw [applied]
    exact (bears.formed.apply_planAdd planned).1
  · intro ref member
    rw [applied] at member
    rcases bears.formed.mem_apply_planAdd planned member with rfl | older
    · simp [Ledger.register, size]
    · exact (bears.turn turns).known ref older
  · intro ref member
    rw [applied] at member
    rcases bears.formed.mem_apply_planAdd planned member with rfl | older
    · have read := congrArg (fun entry => entry.instructions)
        (Ledger.entry_register ledger template)
      rw [instructions]
      exact (show _ = template.instructions from read) ▸ checked accepted
    · exact (bears.turn turns).valid ref older

/-- A modification gives the instructions of the template, whose groups exist. -/
theorem modify {strictness : Strictness} {count : Nat}
    (checked : template.instructions.checkGroups exists? = .ok () →
      valid template.instructions)
    (modified : table.modify ledger exists? template strictness reset =
      .ok (count, last)) : ledger.Turns valid last := by
  have gives : template.instructions.checkGroups exists? = .ok () →
      ∀ state : EntryState,
        valid (state.replaceInstructions template.instructions reset).instructions :=
    fun accepted _ => checked accepted
  unfold Table.modify at modified
  obtain ⟨_, accepted, modified⟩ := exists_of_bind_eq_ok modified
  obtain ⟨chosen, -, modified⟩ := exists_of_bind_eq_ok modified
  obtain rfl := (Prod.mk.inj (Except.ok.inj modified)).2
  exact Ledger.turns_updateAll _ (gives (eq_ok_of_mapError accepted)) ledger chosen

/-- A removal gives no instructions to any entry. -/
theorem remove (bears : table.Bears valid ledger) {target : RemovalTarget}
    {reason : RemovalReason} {count : Nat}
    (removed : table.remove ledger target reason = .ok (count, after, last)) :
    after.Bears valid last ∧ ledger.Turns valid last := by
  unfold Table.remove at removed
  obtain ⟨change, planned, removed⟩ := exists_of_bind_eq_ok removed
  obtain ⟨formed, fewer⟩ := bears.formed.apply_planRemove planned
  simp only at removed
  split at removed
  · obtain ⟨-, rfl, rfl⟩ : _ ∧ table = after ∧ ledger = last := by
      simpa using Except.ok.inj removed
    exact ⟨bears, .refl ledger⟩
  · obtain ⟨-, rfl, rfl⟩ : _ ∧ _ = after ∧
        ledger.dismissAll reason change.evicted = last := by
      simpa only [Prod.mk.injEq] using Except.ok.inj removed
    have turns : ledger.Turns valid (ledger.dismissAll reason change.evicted) :=
      Ledger.turns_dismissAll ledger reason change.evicted
    have left := bears.turn turns
    exact ⟨⟨formed, fun ref member => left.known ref (fewer member),
      fun ref member => left.valid ref (fewer member)⟩, turns⟩

/-- A table from which every entry is taken gives no instructions to any entry. -/
theorem clear (bears : table.Bears valid ledger) (reason : RemovalReason) :
    (table.clear ledger reason).2.1.Bears valid (table.clear ledger reason).2.2 ∧
      ledger.Turns valid (table.clear ledger reason).2.2 := by
  simp only [Table.clear]
  split
  · exact ⟨bears, .refl ledger⟩
  · obtain ⟨formed, none⟩ := bears.formed.apply_clear
    refine ⟨⟨formed, ?_, ?_⟩, Ledger.turns_dismissAll ledger reason _⟩
    · exact fun ref member => absurd (none ▸ member) List.not_mem_nil
    · exact fun ref member => absurd (none ▸ member) List.not_mem_nil

end Bears

end Table

end PacketClassifier
