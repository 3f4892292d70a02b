import PacketClassifier.Proofs.Accounts

/-!
# Tables that can give entries up

On top of a list a table can change its entries where they are, and give them up.  A
modification is about the entries that its template designates by what never changes of
them, so it selects the same ones when it comes again, and does nothing more to them.  A
strict removal is about one entry at most, so right after an entry was added it takes out
that one, and leaves the table as it was before.
-/

namespace PacketClassifier

variable {entries refs : List EntryRef} {ref : EntryRef} {ledger last other : Ledger}
  {matcher : Matcher}

/-! ## Several updates -/

namespace Ledger

theorem ext (sizes : ledger.states.size = other.states.size)
    (states : ∀ id, ledger.state id = other.state id)
    (notices : ledger.notices = other.notices) : ledger = other := by
  have same : ledger.states = other.states := by
    refine Array.ext sizes fun id known knownOther => ?_
    simpa [state, known, knownOther] using states id
  cases ledger
  cases other
  exact congrArg₂ mk same notices

/-- What has its whole effect at once has none the second time. -/
theorem updateAll_updateAll (tracks : ledger.Tracks refs)
    (change : EntryState → EntryState)
    (settles : ∀ state, change (change state) = change state) :
    (ledger.updateAll refs change).updateAll refs change = ledger.updateAll refs change := by
  have later : (ledger.updateAll refs change).Tracks refs :=
    tracks.mono (Nat.le_of_eq (size_updateAll ledger refs change).symm)
  refine ext (size_updateAll ..) (fun id => ?_) (notices_updateAll ..)
  by_cases updated : id ∈ refs.map (·.id)
  · obtain ⟨ref, member, rfl⟩ := List.mem_map.mp updated
    rw [state_updateAll_of_mem later member, state_updateAll_of_mem tracks member, settles]
  · exact state_updateAll_of_not_mem updated _ change

end Ledger

/-- To give the same instructions again, and to reset again, changes nothing. -/
theorem EntryState.replaceInstructions_twice (state : EntryState)
    (instructions : InstructionSet) (reset : Bool) :
    (state.replaceInstructions instructions reset).replaceInstructions instructions reset =
      state.replaceInstructions instructions reset := by
  cases reset with
  | true => simp [replaceInstructions, Tally.reset]
  | false => rfl

/-! ## Selections without a filter -/

/-- The empty filter lets every set pass. -/
theorem InstructionSet.passes_empty (set : InstructionSet) : set.Passes {} :=
  ⟨Or.inl rfl, Or.inl rfl⟩

/-- Without a filter, a template designates entries by what never changes of them. -/
theorem Strictness.selects_congr {strictness : Strictness} {entry later template : Entry}
    (same : entry.toRule = later.toRule) :
    strictness.Selects entry template {} ↔ strictness.Selects later template {} := by
  cases strictness <;>
    simp [Selects, Entry.SameAs, Entry.ContainedIn, InstructionSet.passes_empty, same]

theorem Matcher.selected_of_template (matcher : Matcher) (ledger other : Ledger)
    (template : Entry) (strictness : Strictness) :
    matcher.selected ledger { template, strictness } =
      matcher.selected other { template, strictness } :=
  List.filter_congr fun _ _ => decide_eq_decide.mpr (Strictness.selects_congr rfl)

/-! ## An insertion undone -/

/-- An insertion comes between two parts of a list. -/
theorem insertByPriority_split (entries : List EntryRef) (entry : EntryRef) :
    ∃ front back, entries = front ++ back ∧
      insertByPriority entries entry = front ++ entry :: back :=
  ⟨_, _, (List.take_append_drop _ entries).symm, rfl⟩

/-- What holds of a new entry, and of no other one, picks it out of the list. -/
theorem filter_insertByPriority_eq_singleton {holds : EntryRef → Bool}
    (own : holds ref = true) (others : ∀ entry ∈ entries, ¬ holds entry = true) :
    (insertByPriority entries ref).filter holds = [ref] := by
  obtain ⟨front, back, rfl, inserted⟩ := insertByPriority_split entries ref
  have none := List.filter_eq_nil_iff.mpr others
  rw [List.filter_append, List.append_eq_nil_iff] at none
  rw [inserted, List.filter_append, List.filter_cons_of_pos own, none.1, none.2,
    List.nil_append]

namespace PriorityList

variable {list : PriorityList} {template : Entry}

/-- A strict template selects the entry that was inserted for it, and no other one. -/
theorem selected_insert (fresh : ref.rule.key ∉ list.entries.map (·.rule.key))
    (priority : template.priority = ref.rule.priority)
    (matchSet : template.matchSet = ref.rule.matchSet)
    (cookie : template.cookie = ref.rule.cookie) (ledger : Ledger) :
    (Matcher.list (list.apply (.insert ref))).selected ledger
      { template, strictness := .strict } = [ref] := by
  apply filter_insertByPriority_eq_singleton
  · have agrees : ref.rule.CookieMatches template.cookie template.cookieMask := by
      rw [Rule.CookieMatches, cookie]
    exact decide_eq_true
      ⟨⟨priority.symm, matchSet.symm, fun _ => agrees⟩, InstructionSet.passes_empty _⟩
  · intro other member selects
    obtain ⟨⟨samePriority, sameMatchSet, -⟩, -⟩ := of_decide_eq_true selects
    exact fresh (List.mem_map.mpr ⟨other, member,
      Prod.ext (samePriority.trans priority) (sameMatchSet.trans matchSet)⟩)

/-- A new entry that is taken out again leaves the list as it was. -/
theorem remove_insert (absent : ref ∉ list.entries) :
    (list.apply (.insert ref)).apply (.remove [ref]) = list := by
  have others : list.entries.filter (· ∉ [ref]) = list.entries := by
    refine List.filter_eq_self.mpr fun entry member => ?_
    have different : entry ≠ ref := fun same => absent (same ▸ member)
    simpa using different
  obtain ⟨front, back, parts, inserted⟩ := insertByPriority_split list.entries ref
  have undone : (insertByPriority list.entries ref).filter (· ∉ [ref]) = list.entries := by
    rw [inserted, List.filter_append, List.filter_cons_of_neg (by simp),
      ← List.filter_append, ← parts]
    exact others
  exact congrArg PriorityList.mk undone

end PriorityList

/-! ## Matchers keep their kind -/

namespace Matcher

@[simp]
theorem kind_apply (matcher : Matcher) (change : Change) :
    (matcher.apply change).kind = matcher.kind := by
  cases matcher <;> rfl

theorem kind_run (matcher : Matcher) (requests : List Request) :
    (matcher.run requests).kind = matcher.kind := by
  induction requests generalizing matcher with
  | nil => rfl
  | cons first rest ih =>
      refine (ih (matcher.after first)).trans ?_
      unfold Matcher.after
      cases matcher.plan first with
      | error cause => rfl
      | ok change => exact kind_apply matcher change

theorem eq_list_of_kind (kind : matcher.kind = .list) :
    ∃ list, matcher = .list list := by
  cases matcher with
  | trie tree => cases kind
  | list list => exact ⟨list, rfl⟩

end Matcher

namespace Table

variable {table left : Table} {exists? : GroupId → Bool} {entry template : Entry}
  {checkOverlap reset : Bool} {reason : RemovalReason}

/-- An entry that is added is inserted, as no entry of its key was there before. -/
theorem added_spec (formed : table.matcher.WellFormed)
    (added : table.add ledger exists? entry checkOverlap reset = .ok (.added, left, last)) :
    (ledger.register entry).1.rule.key ∉ table.matcher.entries.map (·.rule.key) ∧
      left = ⟨table.id, table.matcher.apply (.insert (ledger.register entry).1),
        table.count + 1⟩ ∧
      last = table.enter ledger entry := by
  unfold add at added
  obtain ⟨-, -, added⟩ := exists_of_bind_eq_ok added
  obtain ⟨change, planned, added⟩ := exists_of_bind_eq_ok added
  rcases PriorityList.planAdd_cases (formed.planAdd_list planned) with
    ⟨old, -, -, rfl⟩ | ⟨fresh, rfl⟩
  · cases added
  · cases added
    exact ⟨fresh, rfl, rfl⟩

/-- On top of a list, a modification is refused only for groups that do not exist. -/
theorem modify_eq (onList : table.kind = .list)
    (groups : ∀ group, template.instructions.HasGroup group → exists? group = true)
    (ledger : Ledger) (strictness : Strictness) (reset : Bool) :
    table.modify ledger exists? template strictness reset =
      .ok ((table.matcher.selected ledger { template, strictness }).length,
        ledger.updateAll (table.matcher.selected ledger { template, strictness })
          (·.replaceInstructions template.instructions reset)) := by
  rcases table with ⟨id, matcher, count⟩
  obtain ⟨list, rfl⟩ := Matcher.eq_list_of_kind onList
  unfold modify
  rw [InstructionSet.checkGroups_eq_ok_iff.mpr groups]
  rfl

/-- On top of a list, a removal takes out the only entry that is selected. -/
theorem remove_eq_of_selected {list : PriorityList} {query : Query}
    (single : (Matcher.list list).selected ledger query = [ref]) (id : TableId)
    (count : Nat) (reason : RemovalReason) :
    (Table.mk id (.list list) count).remove ledger (.selected query) reason =
      .ok (1, ⟨id, .list (list.apply (.remove [ref])), count - 1⟩,
        ledger.dismissAll reason [ref]) := by
  simp only [remove, Matcher.planRemove, single]
  rfl

theorem kind_of_remove {target : RemovalTarget} {count : Nat}
    (removed : table.remove ledger target reason = .ok (count, left, last)) :
    left.kind = table.kind := by
  unfold remove at removed
  obtain ⟨change, -, removed⟩ := exists_of_bind_eq_ok removed
  simp only at removed
  split at removed
  · cases removed
    rfl
  · cases removed
    exact Matcher.kind_apply ..

theorem kind_clear (table : Table) (ledger : Ledger) (reason : RemovalReason) :
    (table.clear ledger reason).2.1.kind = table.kind := by
  unfold clear
  simp only
  split
  · rfl
  · exact Matcher.kind_apply ..

namespace Stage

variable {stage : Stage} {kind : MatcherKind}

theorem kind_after (stage : Stage) (request : Request) :
    (stage.after request).table.kind = stage.table.kind := by
  cases request with
  | add exists? entry checkOverlap reset =>
      cases added : stage.table.add stage.ledger exists? entry checkOverlap reset with
      | error cause => simp only [Stage.after, added]
      | ok result =>
          simp only [Stage.after, added]
          obtain ⟨-, -, -, change, -, applied⟩ := add_spec added
          rw [Table.kind, applied, Matcher.kind_apply]
          rfl
  | modify exists? template strictness reset =>
      cases modified : stage.table.modify stage.ledger exists? template strictness
          reset with
      | error cause => simp only [Stage.after, modified]
      | ok result => simp only [Stage.after, modified]
  | remove target reason =>
      cases removed : stage.table.remove stage.ledger target reason with
      | error cause => simp only [Stage.after, removed]
      | ok result => simpa only [Stage.after, removed] using kind_of_remove removed
  | clear reason => exact kind_clear stage.table stage.ledger reason
  | classify packet thread bytes => rfl

/-! ## Reachable tables -/

/--
A table is made on top of a matcher, with the entries that this already had, and then
gets requests.  In between, whoever holds on to entries can change what is known of them,
and make entries for other tables known.
-/
inductive Reached (kind : MatcherKind) : Stage → Prop
  | made {ledger : Ledger} (id : TableId) (before : List Matcher.Request)
      (tracks : ledger.Tracks ((Matcher.empty kind).run before).entries) :
      Reached kind (on id ((Matcher.empty kind).run before) ledger)
  | request {stage : Stage} (reached : Reached kind stage) (request : Request) :
      Reached kind (stage.after request)
  | shared {stage : Stage} {last : Ledger} (reached : Reached kind stage)
      (grown : stage.ledger.states.size ≤ last.states.size) :
      Reached kind ⟨stage.table, last⟩

namespace Reached

theorem orderly (reached : stage.Reached kind) : stage.Orderly := by
  induction reached with
  | made id before tracks => exact ⟨(Matcher.wellFormed_empty kind).run before, tracks⟩
  | request reached request ih => exact ih.after request
  | shared reached grown ih => exact ⟨ih.formed, ih.tracks.mono grown⟩

theorem kind_eq (reached : stage.Reached kind) : stage.table.kind = kind := by
  induction reached with
  | made id before tracks =>
      refine (Matcher.kind_run (Matcher.empty kind) before).trans ?_
      cases kind <;> rfl
  | request reached request ih => exact (kind_after _ request).trans ih
  | shared reached grown ih => exact ih

theorem run (reached : stage.Reached kind) (requests : List Request) :
    (stage.run requests).Reached kind := by
  induction requests generalizing stage with
  | nil => exact reached
  | cons first rest ih => exact ih (reached.request first)

end Reached

theorem reached_new (id : TableId) (kind : MatcherKind) : (new id kind).Reached kind :=
  .made id [] (orderly_new id kind).tracks

/-! ## Modifications -/

/-- The entries that a template designates. -/
def designated (stage : Stage) (strictness : Strictness) (template : Entry) :
    List EntryRef :=
  stage.entries.filter
    (fun ref => strictness.Selects (stage.ledger.entry ref) template {})

/-- What is known in `last` of the chosen entries of a table is what a template says. -/
structure Rewritten (stage : Stage) (last : Ledger) (chosen : List EntryRef)
    (template : Entry) (reset : Bool) : Prop where
  instructions : ∀ ref ∈ chosen, (last.entry ref).instructions = template.instructions
  counters : ∀ ref ∈ chosen,
    (last.entry ref).counters = if reset then {} else (stage.ledger.entry ref).counters
  /-- The other entries are as they were. -/
  others : ∀ ref ∈ stage.entries, ref ∉ chosen → last.entry ref = stage.ledger.entry ref
  /-- So is whatever is not in the table. -/
  elsewhere : ∀ id ∉ stage.entries.map (·.id), last.state id = stage.ledger.state id
  notices : last.notices = stage.ledger.notices

theorem Orderly.rewritten (orderly : stage.Orderly) {chosen : List EntryRef}
    (part : chosen.Sublist stage.entries) (template : Entry) (reset : Bool) :
    stage.Rewritten (stage.ledger.updateAll chosen
      (·.replaceInstructions template.instructions reset)) chosen template reset := by
  have tracks := orderly.tracks.sublist part
  have given : ∀ ref ∈ chosen, (stage.ledger.updateAll chosen
      (·.replaceInstructions template.instructions reset)).state ref.id =
        (stage.ledger.state ref.id).replaceInstructions template.instructions reset :=
    fun ref member => Ledger.state_updateAll_of_mem tracks member _
  constructor
  · intro ref member
    have set := congrArg EntryState.instructions (given ref member)
    exact set
  · intro ref member
    have tally := congrArg (·.tally.counters) (given ref member)
    cases reset with
    | true => exact tally.trans (Tally.counters_reset _)
    | false => exact tally
  · intro ref member unchosen
    have different : ref.id ∉ chosen.map (·.id) := by
      intro listed
      obtain ⟨other, picked, same⟩ := List.mem_map.mp listed
      have alike := List.inj_on_of_nodup_map orderly.tracks.apart (part.subset picked)
        member same
      exact unchosen (alike ▸ picked)
    rw [Ledger.entry, Ledger.state_updateAll_of_not_mem different]
    rfl
  · exact fun id absent => Ledger.state_updateAll_of_not_mem
      (fun listed => absent ((part.map _).subset listed)) stage.ledger _
  · exact Ledger.notices_updateAll ..

/--
On top of a list, a modification with groups that exist is about the entries that the
template designates.  They get its instructions, and lose their counters if that is asked
for.  The table with its entries stays, and so does what is known of all others.  The same
request once more is about as many entries, and changes nothing.
-/
theorem Reached.modify_inPlace (reached : stage.Reached .list)
    (groups : ∀ group, template.instructions.HasGroup group → exists? group = true)
    (strictness : Strictness) (reset : Bool) :
    ∃ last : Ledger,
      stage.table.modify stage.ledger exists? template strictness reset =
        .ok ((stage.designated strictness template).length, last) ∧
      stage.after (.modify exists? template strictness reset) = ⟨stage.table, last⟩ ∧
      stage.Rewritten last (stage.designated strictness template) template reset ∧
      stage.table.modify last exists? template strictness reset =
        .ok ((stage.designated strictness template).length, last) := by
  have modified := modify_eq reached.kind_eq groups stage.ledger strictness reset
  refine ⟨_, modified, ?_,
    reached.orderly.rewritten List.filter_sublist template reset, ?_⟩
  · simp only [Stage.after, modified]
  · have again := modify_eq reached.kind_eq groups
      (stage.ledger.updateAll (stage.designated strictness template)
        (·.replaceInstructions template.instructions reset)) strictness reset
    -- the template designates the same entries again, whatever they have been given
    rw [Matcher.selected_of_template _ _ stage.ledger] at again
    refine again.trans ?_
    have tracks : stage.ledger.Tracks (stage.designated strictness template) :=
      reached.orderly.tracks.sublist List.filter_sublist
    have settled := Ledger.updateAll_updateAll tracks
      (·.replaceInstructions template.instructions reset)
      (fun state => state.replaceInstructions_twice template.instructions reset)
    exact congrArg (fun ledger => Except.ok (_, ledger)) settled

/-- A table with a rule for a network and one for every packet, which was hit once. -/
def hitOnce : Stage :=
  (new ⟨0⟩ .list).run
    [.add (fun _ => true) { toRule := Trie.subnet.rule } true false,
      .add (fun _ => true) {} true false,
      .classify Packet.empty 0 64]

/-- A template for the rule for every packet, with a group to send packets to. -/
def towardsGroup : Entry where
  instructions := InstructionSet.ofList [.applyActions [.group ⟨7⟩]]

/-- The rule for every packet gets the group and is counted anew; the other one stays. -/
theorem hitOnce_modify :
    hitOnce.Reached .list ∧
      (∀ group, towardsGroup.instructions.HasGroup group →
        decide (group = ⟨7⟩) = true) ∧
      (hitOnce.ledger.entry ⟨1, {}⟩).counters = ⟨1, 64⟩ ∧
      ∃ last : Ledger,
        hitOnce.table.modify hitOnce.ledger (· = ⟨7⟩) towardsGroup .strict true =
          .ok (1, last) ∧
        (last.entry ⟨1, {}⟩).counters = {} ∧
        last.entry Trie.subnet = hitOnce.ledger.entry Trie.subnet ∧
        hitOnce.table.modify last (· = ⟨7⟩) towardsGroup .strict true = .ok (1, last) := by
  have reached : hitOnce.Reached .list := (reached_new ⟨0⟩ .list).run _
  have groups : ∀ group, towardsGroup.instructions.HasGroup group →
      decide (group = ⟨7⟩) = true := by
    intro group uses
    have listed : Action.group group ∈ [Action.group ⟨7⟩] := uses
    simpa using listed
  have chosen : hitOnce.designated .strict towardsGroup = [⟨1, {}⟩] := by decide +kernel
  obtain ⟨last, modified, -, rewritten, again⟩ :=
    reached.modify_inPlace groups .strict true
  rw [chosen] at modified rewritten again
  exact ⟨reached, groups, by decide +kernel, last, modified,
    rewritten.counters _ List.mem_cons_self,
    rewritten.others _ (by decide +kernel) (by decide), again⟩

/-! ## Removals -/

/--
On top of a list, a strict removal right after an entry was added, with its priority, its
conjunction and its cookie, takes out that entry.  The table is what it was before, and
nothing else is known of its entries, or of any others.
-/
theorem Reached.remove_added (reached : stage.Reached .list)
    (added : stage.table.add stage.ledger exists? entry checkOverlap reset =
      .ok (.added, left, last))
    (template : Entry) (priority : template.priority = entry.priority)
    (matchSet : template.matchSet = entry.matchSet)
    (cookie : template.cookie = entry.cookie) (reason : RemovalReason) :
    ∃ final : Ledger,
      left.remove last (.selected { template, strictness := .strict }) reason =
        .ok (1, stage.table, final) ∧
      (∀ ref ∈ stage.entries, final.entry ref = stage.ledger.entry ref) ∧
      ∀ id < stage.ledger.states.size, final.state id = stage.ledger.state id := by
  have orderly := reached.orderly
  obtain ⟨fresh, rfl, rfl⟩ := added_spec orderly.formed added
  have kept : ∀ id < stage.ledger.states.size,
      ((stage.table.enter stage.ledger entry).dismissAll reason
        [(stage.ledger.register entry).1]).state id = stage.ledger.state id :=
    fun id known => (Ledger.state_dismissAll ..).trans
      (state_enter_of_lt known stage.table entry)
  refine ⟨(stage.table.enter stage.ledger entry).dismissAll reason
    [(stage.ledger.register entry).1], ?_, fun ref member =>
      congrArg (Entry.mk ref.rule) (kept ref.id (orderly.tracks.known ref member)), kept⟩
  -- the entry was not there before, so only it has the key that the template gives
  rcases stage with ⟨⟨id, matcher, count⟩, ledger⟩
  obtain ⟨list, rfl⟩ := Matcher.eq_list_of_kind reached.kind_eq
  have absent : (ledger.register entry).1 ∉ list.entries := fun member =>
    fresh (List.mem_map_of_mem (f := fun ref : EntryRef => ref.rule.key) member)
  have single := PriorityList.selected_insert fresh priority matchSet cookie
    (enter ⟨id, .list list, count⟩ ledger entry)
  refine (remove_eq_of_selected single id (count + 1) reason).trans ?_
  rw [PriorityList.remove_insert absent]
  rfl

/-- A table with a rule for every packet. -/
def lone : Stage :=
  (new ⟨0⟩ .list).run [.add (fun _ => true) {} true false]

/-- The rule of `Trie.subnet` with a cookie. -/
def branded : Entry where
  toRule := { Trie.subnet.rule with cookie := 5 }

/-- The rule comes before the one for every packet, and is taken out by its cookie. -/
theorem lone_remove :
    lone.Reached .list ∧
      ∃ left last,
        lone.table.add lone.ledger (fun _ => true) branded true false =
          .ok (.added, left, last) ∧
        ∃ final : Ledger,
          left.remove last
            (.selected ⟨{ branded with cookieMask := 0xFF }, .strict, {}⟩) .delete =
              .ok (1, lone.table, final) ∧
          final.entry ⟨0, {}⟩ = { table := some ⟨0⟩ } := by
  have reached : lone.Reached .list := (reached_new ⟨0⟩ .list).run _
  obtain ⟨left, last, added⟩ : ∃ left last,
      lone.table.add lone.ledger (fun _ => true) branded true false =
        .ok (.added, left, last) := ⟨_, _, rfl⟩
  obtain ⟨final, removed, restored, -⟩ := reached.remove_added added
    { branded with cookieMask := 0xFF } rfl rfl rfl .delete
  exact ⟨reached, left, last, added, final, removed, restored _ List.mem_cons_self⟩

end Stage

end Table

end PacketClassifier
