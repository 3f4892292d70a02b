import PacketClassifier.Proofs.Trie.BestMatch

/-!
# What a change changes for a packet

Of the entries of highest priority that a packet satisfies, a search finds the first in
depth-first order.  A planned change moves no entry in that order, so the answer can go
over to a new entry only: no packet changes between two entries that were there before.
-/

namespace PacketClassifier.Trie

variable {trie : Trie} {chain : Chain} {entry old new : EntryRef}
  {change : Change} {installed : List EntryRef} {packet : Packet}

/-! ## Folds over parts of a list -/

/-- The better one of two results, the first of them if they are of one priority. -/
def prefer (best : Option EntryRef) : Option EntryRef → Option EntryRef
  | none => best
  | some entry => better best entry

theorem prefer_assoc (first second third : Option EntryRef) :
    prefer (prefer first second) third = prefer first (prefer second third) := by
  cases first <;> cases second <;> cases third <;> grind [prefer, better, beats]

theorem foldl_better_eq (entries : List EntryRef) (best : Option EntryRef) :
    entries.foldl better best = prefer best (entries.foldl better none) := by
  induction entries generalizing best with
  | nil => rfl
  | cons first rest ih =>
      calc (first :: rest).foldl better best
          = prefer (prefer best (some first)) (rest.foldl better none) := ih _
        _ = prefer best (prefer (some first) (rest.foldl better none)) :=
            prefer_assoc _ _ _
        _ = prefer best ((first :: rest).foldl better none) :=
            congrArg (prefer best) (ih (some first)).symm

/-- An entry put in between two parts either is the result or changes nothing. -/
theorem prefer_between (first second : Option EntryRef) (entry : EntryRef) :
    prefer (better first entry) second = prefer first second ∨
      prefer (better first entry) second = some entry := by
  cases first <;> cases second <;> grind [prefer, better, beats]

/-- A fold over a list that an entry joins finds what it found before, or that entry. -/
theorem foldl_better_joins {before after : List EntryRef}
    (joins : Joins entry before after) :
    after.foldl better none = before.foldl better none ∨
      after.foldl better none = some entry := by
  rcases joins with ⟨ahead, behind, rfl, rfl⟩
  rw [List.foldl_append, List.foldl_append, List.foldl_cons, foldl_better_eq behind,
    foldl_better_eq behind (ahead.foldl better none)]
  exact prefer_between _ _ _

/-! ## Exchanges -/

theorem better_exchange (same : new.rule.key = old.rule.key)
    (best : Option EntryRef) (entry : EntryRef) :
    better (best.map (old.exchange new)) (old.exchange new entry) =
      (better best entry).map (old.exchange new) := by
  unfold better beats
  rw [priority_exchange same, Option.all_map]
  simp only [priority_exchange same]
  split
  · rfl
  · rfl

/-- A fold over entries among which `old` gave way finds `new` where it found `old`. -/
theorem foldl_better_exchange (same : new.rule.key = old.rule.key)
    (entries : List EntryRef) (best : Option EntryRef) :
    (entries.map (old.exchange new)).foldl better
        (best.map (old.exchange new)) =
      (entries.foldl better best).map (old.exchange new) := by
  induction entries generalizing best with
  | nil => rfl
  | cons first rest ih =>
      rw [List.map_cons, List.foldl_cons, better_exchange same, ih, List.foldl_cons]

theorem filter_exchange (same : new.rule.key = old.rule.key)
    (entries : List EntryRef) (packet : Packet) :
    (entries.map (old.exchange new)).filter (·.rule.matchSet.Admits packet) =
      (entries.filter (·.rule.matchSet.Admits packet)).map (old.exchange new) := by
  rw [List.filter_map]
  simp only [Function.comp_def, matchSet_exchange same]

/-! ## Answers before and after -/

/-- After an insertion a search finds what it found before, or the new entry. -/
theorem WellFormed.find?_insert (formed : trie.WellFormed chain)
    (planned : trie.Plans (.insert entry)) (packet : Packet) :
    (trie.apply (.insert entry)).find? packet = trie.find? packet ∨
      (trie.apply (.insert entry)).find? packet = some entry := by
  obtain ⟨grown, inPlace⟩ := formed.apply planned
  have joins : Joins entry (trie.inventory chain) _ := inPlace
  rw [grown.coherent.find?_eq, formed.coherent.find?_eq]
  rcases joins.filter (·.rule.matchSet.Admits packet) with same | joined
  · exact Or.inl (by rw [same])
  · exact foldl_better_joins joined

/-- After a replacement a search finds `new` where it found `old`. -/
theorem WellFormed.find?_replace (formed : trie.WellFormed chain)
    (planned : trie.Plans (.replace old new)) (packet : Packet) :
    (trie.apply (.replace old new)).find? packet =
      (trie.find? packet).map (old.exchange new) := by
  have same : new.rule.key = old.rule.key := by
    cases planned with
    | add planned =>
        rcases formed.planAdd_cases planned with
          ⟨other, -, key, replaced⟩ | ⟨-, -, inserted⟩
        · cases replaced
          exact key
        · cases inserted
  obtain ⟨exchanged, mapped⟩ := formed.apply planned
  rw [exchanged.coherent.find?_eq, formed.coherent.find?_eq, mapped, filter_exchange same]
  exact foldl_better_exchange same _ none

/-- What a change may make of the answer `before` to the search for a packet. -/
def Redirects (packet : Packet) (before after : Option EntryRef) : Change → Prop
  | .insert entry =>
      (after = before ∨ after = some entry) ∧
        (after = some entry →
          entry.rule.matchSet.Admits packet ∧
            ∀ former ∈ before, former.rule.priority ≤ entry.rule.priority) ∧
        (entry.rule.matchSet.Admits packet →
          (∀ former ∈ before, former.rule.priority < entry.rule.priority) →
            after = some entry)
  | .replace old new =>
      (before = some old → after = some new) ∧
        (before ≠ some old → after = before)
  | .remove _ => after = before
  | .clear => after = none

/-- Right answers before and after an insertion settle when the new entry is found. -/
theorem redirects_insert {before after : Option EntryRef}
    (found : Answers installed packet before)
    (foundAfter : Answers (entry :: installed) packet after)
    (kept : after = before ∨ after = some entry) :
    Redirects packet before after (.insert entry) := by
  refine ⟨kept, ?_, ?_⟩
  · rintro rfl
    refine ⟨foundAfter.2.1, ?_⟩
    rintro former rfl
    exact foundAfter.2.2 former (List.mem_cons_of_mem _ found.1) found.2.1
  · intro satisfied lower
    rcases kept with rfl | taken
    · cases after with
      | none => exact absurd satisfied (foundAfter entry List.mem_cons_self)
      | some best =>
          have bound := foundAfter.2.2 entry List.mem_cons_self satisfied
          exact absurd bound (UInt32.not_le.mpr (lower best rfl))
    · exact taken

/--
Along every run, a planned change lets the answer for a packet go over to a new entry
only.  An insertion does so only for packets that satisfy the entry and had no answer
of higher priority, and it does so if they had none of the same priority either; a
replacement does so where the entry that gives way was the answer.
-/
theorem Reaches.find?_redirects (reached : trie.Reaches installed)
    (planned : trie.Plans change) (packet : Packet) :
    Redirects packet (trie.find? packet) ((trie.apply change).find? packet)
      change := by
  obtain ⟨chain, formed, -⟩ := reached.formed
  cases change with
  | insert entry =>
      exact redirects_insert (reached.find?_answers packet)
        ((reached.step planned).find?_answers packet)
        (formed.find?_insert planned packet)
  | replace old new =>
      rw [Redirects, formed.find?_replace planned packet]
      refine ⟨fun found => ?_, fun other => ?_⟩
      · rw [found, Option.map_some, EntryRef.exchange_self]
      · cases found : trie.find? packet with
        | none => rfl
        | some best =>
            have different : best ≠ old := fun same => other (same ▸ found)
            rw [Option.map_some, EntryRef.exchange_of_ne different]
  | remove gone => rfl
  | clear => rfl

/-- The host takes over the packets of its address from the network it is in. -/
theorem subnet_find?_redirects :
    (Trie.empty.apply (.insert subnet)).Reaches [subnet] ∧
      (Trie.empty.apply (.insert subnet)).Plans (.insert host) ∧
      (Trie.empty.apply (.insert subnet)).find?
        (Packet.empty.set .ipv4Dst 0x0A000001) = some subnet ∧
      ((Trie.empty.apply (.insert subnet)).apply (.insert host)).find?
        (Packet.empty.set .ipv4Dst 0x0A000001) = some host := by
  have first : Trie.empty.Plans (.insert subnet) :=
    .add (show Trie.empty.planAdd subnet true = .ok (.insert subnet) by decide)
  have reached := Reaches.empty.step first
  have second : (Trie.empty.apply (.insert subnet)).Plans (.insert host) :=
    .add (show (Trie.empty.apply (.insert subnet)).planAdd host true =
      .ok (.insert host) by decide)
  have redirects := reached.find?_redirects second
    (Packet.empty.set .ipv4Dst 0x0A000001)
  exact ⟨reached, second, by decide, redirects.2.2 (by decide) (by decide)⟩

end PacketClassifier.Trie
