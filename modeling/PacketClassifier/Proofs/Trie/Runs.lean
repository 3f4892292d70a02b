import PacketClassifier.Proofs.Trie.WellFormed

/-!
# Runs of a trie

A trie comes about from the empty one by changes that were planned on it.  A plan is
the one that a list of the same entries would make, unless there is no room for more
nodes.  Every planned change keeps the trie well-formed and does to its entries what
the change says, so the invariant and the record of installed entries hold together
along every run.
-/

namespace PacketClassifier

namespace Trie

variable {trie : Trie} {chain : Chain} {entry : EntryRef} {checkOverlap : Bool}
  {change : Change} {installed : List EntryRef}

/-! ## Plans -/

/-- The change may be applied: it was planned, or it takes everything out. -/
inductive Plans (trie : Trie) : Change → Prop
  | add {entry : EntryRef} {checkOverlap : Bool} {change : Change}
      (planned : trie.planAdd entry checkOverlap = .ok change) :
      Plans trie change
  | clear : Plans trie .clear

/-- Some entry that overlaps a new one is met on the walk if there is one at all. -/
theorem WellFormed.overlaps_iff (formed : trie.WellFormed chain) :
    (∃ other ∈ trie.walk .overlapping entry.rule.matchSet,
      other.rule.Overlaps entry.rule true true) ↔
      ∃ other ∈ trie.inventory chain,
        other.rule.Overlaps entry.rule true true := by
  constructor
  · rintro ⟨other, walked, overlaps⟩
    exact ⟨other, (formed.mem_walk_overlapping.mp walked).1, overlaps⟩
  · rintro ⟨other, member, overlaps⟩
    exact ⟨other, formed.mem_walk_overlapping.mpr ⟨member, overlaps.2.2⟩,
      overlaps⟩

/-- An entry that has to give way is met on the walk if there is one at all. -/
theorem WellFormed.find?_walk (formed : trie.WellFormed chain)
    (entry : EntryRef) :
    (trie.walk .enclosing entry.rule.matchSet).find?
        (fun other => other.rule.SameAs entry.rule false) =
      (trie.inventory chain).find?
        (fun other => other.rule.SameAs entry.rule false) := by
  apply find?_sameAs_congr entry formed.apart
  intro other same
  have sets : other.rule.matchSet = entry.rule.matchSet :=
    congrArg Prod.snd same
  rw [← sets]
  exact formed.mem_walk_enclosing other

/-- A trie plans what a list of its entries would, and then makes sure of room. -/
theorem WellFormed.planAdd_eq (formed : trie.WellFormed chain)
    (entry : EntryRef) (checkOverlap : Bool) :
    trie.planAdd entry checkOverlap =
      (do
        let change ← (PriorityList.mk (trie.inventory chain)).planAdd entry
          checkOverlap
        if change = .insert entry ∧
            maxNodes < trie.nodes.size + entry.rule.matchSet.size + 1 then
          .error .arenaFull
        else
          .ok change) := by
  unfold planAdd PriorityList.planAdd
  rw [formed.find?_walk]
  simp only [formed.overlaps_iff]
  split
  · rfl
  · cases (trie.inventory chain).find?
        (fun other => other.rule.SameAs entry.rule false) with
    | none => simp only [bind, Except.bind, true_and]
    | some old => simp [bind, Except.bind]

/-- What is planned on a trie would be planned on a list of its entries, and has room. -/
theorem WellFormed.planned_list (formed : trie.WellFormed chain)
    (planned : trie.planAdd entry checkOverlap = .ok change) :
    (PriorityList.mk (trie.inventory chain)).planAdd entry checkOverlap = .ok change ∧
      (change = .insert entry →
        trie.nodes.size + entry.rule.matchSet.size + 1 ≤ maxNodes) := by
  rw [formed.planAdd_eq] at planned
  cases listed : (PriorityList.mk (trie.inventory chain)).planAdd entry
      checkOverlap with
  | error cause =>
      rw [listed] at planned
      exact absurd planned (by simp [bind, Except.bind])
  | ok intended =>
      rw [listed] at planned
      simp only [bind, Except.bind] at planned
      split at planned
      · exact absurd planned (by simp)
      · rename_i room
        obtain rfl := Except.ok.inj planned
        exact ⟨rfl, fun inserted => Nat.not_lt.mp (fun full => room ⟨inserted, full⟩)⟩

/-- A plan exchanges an installed entry, or it installs the new one where it fits. -/
theorem WellFormed.planAdd_cases (formed : trie.WellFormed chain)
    (planned : trie.planAdd entry checkOverlap = .ok change) :
    (∃ old ∈ trie.inventory chain,
      entry.rule.key = old.rule.key ∧ change = .replace old entry) ∨
      entry.rule.key ∉ (trie.inventory chain).map (·.rule.key) ∧
        trie.nodes.size + entry.rule.matchSet.size + 1 ≤ maxNodes ∧
        change = .insert entry := by
  obtain ⟨listed, room⟩ := formed.planned_list planned
  rcases PriorityList.planAdd_cases listed with replaced | ⟨fresh, inserted⟩
  · exact Or.inl replaced
  · exact Or.inr ⟨fresh, room inserted, inserted⟩

/-! ## The step -/

/-- What a change makes of the tree that a trie represents. -/
def regrow (trie : Trie) (chain : Chain) : Change → Chain
  | .insert entry => trie.plant chain entry
  | .replace old new => chain.exchange old new
  | .remove _ => chain
  | .clear => .empty

/-- The change is carried out on a list, and no other entry changes its place. -/
def InPlace (before after : List EntryRef) : Change → Prop
  | .insert entry => Joins entry before after
  | .replace old new => after = before.map (old.exchange new)
  | .remove gone => after = before.filter (· ∉ gone)
  | .clear => after = []

theorem InPlace.perm {before after : List EntryRef}
    (inPlace : InPlace before after change) :
    after.Perm (change.carryOut before) := by
  cases change with
  | insert entry => exact Joins.perm inPlace
  | replace old new => exact List.Perm.of_eq inPlace
  | remove gone => exact List.Perm.of_eq inPlace
  | clear => exact List.Perm.of_eq inPlace

/--
A planned change keeps a trie well-formed.  It does what it says to the entries, and
the others stay in depth-first order.
-/
theorem WellFormed.apply (formed : trie.WellFormed chain)
    (planned : trie.Plans change) :
    (trie.apply change).WellFormed (trie.regrow chain change) ∧
      InPlace (trie.inventory chain)
        ((trie.apply change).inventory (trie.regrow chain change)) change := by
  cases planned with
  | clear => exact ⟨WellFormed.empty, rfl⟩
  | add planned =>
      rcases formed.planAdd_cases planned with
        ⟨old, member, same, rfl⟩ | ⟨fresh, room, rfl⟩
      · exact formed.replace member same
      · obtain ⟨grown, inserted, grownFormed, joined⟩ := formed.insert fresh room
        simp only [Trie.apply, Trie.insert, inserted, Option.getD_some]
        exact ⟨grownFormed, joined⟩

/-! ## The run -/

/-- The trie comes about by planned changes that leave the entries `installed`. -/
inductive Reaches : Trie → List EntryRef → Prop
  | empty : Reaches Trie.empty []
  | step {trie : Trie} {installed : List EntryRef} {change : Change}
      (reached : Reaches trie installed) (planned : trie.Plans change) :
      Reaches (trie.apply change) (change.carryOut installed)

/-- A trie that comes about is well-formed, and its entries are the installed ones. -/
theorem Reaches.formed (reached : trie.Reaches installed) :
    ∃ chain, trie.WellFormed chain ∧ (trie.inventory chain).Perm installed := by
  induction reached with
  | empty => exact ⟨.empty, WellFormed.empty, List.Perm.refl []⟩
  | step reached planned ih =>
      obtain ⟨chain, formed, same⟩ := ih
      obtain ⟨changed, inPlace⟩ := formed.apply planned
      exact ⟨_, changed, inPlace.perm.trans (Change.carryOut_perm _ same)⟩

theorem Reaches.apart (reached : trie.Reaches installed) :
    ToldApart installed := by
  obtain ⟨chain, formed, same⟩ := reached.formed
  exact formed.apart.perm same

theorem Reaches.entries_perm (reached : trie.Reaches installed) :
    trie.entries.Perm installed := by
  obtain ⟨chain, formed, same⟩ := reached.formed
  exact formed.entries_perm.trans same

/-- A rule for a network, by the leading byte of the address. -/
def subnet : EntryRef where
  id := 0
  rule := {
    priority := 1
    matchSet := ⟨[⟨.ipv4Dst, 0x0A000000, 0xFF000000, by decide, by decide⟩],
      by simp [InFieldOrder], by decide⟩ }

def host : EntryRef where
  id := 1
  rule := {
    priority := 2
    matchSet := ⟨[⟨.ipv4Dst, 0x0A000001, 0xFFFFFFFF, by decide, by decide⟩],
      by simp [InFieldOrder], by decide⟩ }

/-- The trie with a network and one of its hosts. -/
def sample : Trie :=
  (Trie.empty.apply (.insert subnet)).apply (.insert host)

theorem reaches_sample : sample.Reaches [host, subnet] := by
  have first : Trie.empty.Plans (.insert subnet) :=
    .add (show Trie.empty.planAdd subnet true = .ok (.insert subnet) by decide)
  have second : (Trie.empty.apply (.insert subnet)).Plans (.insert host) :=
    .add (show (Trie.empty.apply (.insert subnet)).planAdd host true =
      .ok (.insert host) by decide)
  exact (Reaches.empty.step first).step second

/-! ## What is listed -/

/-- A planned change does to the entries listed what it does to a record of them. -/
theorem Reaches.entries_apply (reached : trie.Reaches installed)
    (planned : trie.Plans change) :
    (trie.apply change).entries.Perm (change.carryOut trie.entries) := by
  have carried := (reached.step planned).entries_perm
  exact carried.trans (Change.carryOut_perm change reached.entries_perm.symm)

/-- A planned change is about entries that are, or are not, installed. -/
theorem Reaches.plans_cases (reached : trie.Reaches installed)
    (planned : trie.Plans change) :
    (∃ entry, entry ∉ trie.entries ∧ change = .insert entry) ∨
      (∃ old new, old ∈ trie.entries ∧ change = .replace old new) ∨
        change = .clear := by
  obtain ⟨chain, formed, -⟩ := reached.formed
  have listed : ∀ {entry : EntryRef},
      entry ∈ trie.entries ↔ entry ∈ trie.inventory chain :=
    formed.entries_perm.mem_iff
  cases planned with
  | clear => exact Or.inr (Or.inr rfl)
  | add planned =>
      rcases formed.planAdd_cases planned with
        ⟨old, member, -, rfl⟩ | ⟨fresh, -, rfl⟩
      · exact Or.inr (Or.inl ⟨old, _, listed.mpr member, rfl⟩)
      · refine Or.inl ⟨_, fun member => fresh ?_, rfl⟩
        exact List.mem_map_of_mem (listed.mp member)

/-- The change `change` turns entries listed as `before` into those listed as `after`. -/
def Lists (before after : List EntryRef) : Change → Prop
  | .insert entry => entry ∉ before ∧ after.Perm (entry :: before)
  | .replace old new => old ∈ before ∧ after.Perm (new :: before.erase old)
  | .remove gone => after.Perm (before.filter (· ∉ gone))
  | .clear => after = []

/--
Along every run a check finds no flaw, and the entries listed are the installed ones,
each once.  A planned change adds a single new entry, or exchanges a single one, or
takes everything out.
-/
theorem Reaches.consistent (reached : trie.Reaches installed) :
    trie.check = .ok () ∧
      trie.entries.Nodup ∧
      trie.entries.Perm installed ∧
      trie.size = trie.entries.length ∧
      ∀ change, trie.Plans change →
        Lists trie.entries (trie.apply change).entries change := by
  obtain ⟨chain, formed, -⟩ := reached.formed
  have distinct : trie.entries.Nodup :=
    formed.entries_perm.nodup_iff.mpr formed.apart.nodup
  refine ⟨formed.check_eq_ok, distinct, reached.entries_perm, ?_, ?_⟩
  · rw [formed.entries_perm.length_eq]
    exact formed.size
  · intro change planned
    have carried := reached.entries_apply planned
    rcases reached.plans_cases planned with
      ⟨entry, fresh, rfl⟩ | ⟨old, new, member, rfl⟩ | rfl
    · exact ⟨fresh, carried⟩
    · exact ⟨member, carried.trans (map_exchange_perm distinct member)⟩
    · exact List.perm_nil.mp carried

theorem sample_consistent :
    sample.Reaches [host, subnet] ∧ sample.check = .ok () ∧
      sample.entries.Perm [host, subnet] ∧ sample.size = 2 := by
  have facts := reaches_sample.consistent
  exact ⟨reaches_sample, facts.1, facts.2.2.1,
    facts.2.2.2.1.trans (facts.2.2.1.length_eq)⟩

end Trie

end PacketClassifier
