import PacketClassifier.Proofs.Answers
import PacketClassifier.Proofs.Trie.Runs

/-!
# The best match of a trie

A search passes over whole nodes because of what they cache.  Along every run its
answer is still a right one: what it passes over could not have been better.
-/

namespace PacketClassifier.Trie

variable {trie : Trie} {chain : Chain} {installed : List EntryRef}

/-! ## Folding over entries -/

/-- The result is one of the entries, and none of them is of a higher priority. -/
def Leads (entries : List EntryRef) : Option EntryRef → Prop
  | none => entries = []
  | some found =>
      found ∈ entries ∧
        ∀ entry ∈ entries, entry.rule.priority ≤ found.rule.priority

/-- The better one of the leading entry and a further one leads both. -/
theorem Leads.better {entries : List EntryRef} {best : Option EntryRef}
    (leads : Leads entries best) (entry : EntryRef) :
    Leads (entries ++ [entry]) (better best entry) := by
  unfold Trie.better
  split
  · rename_i won
    refine ⟨List.mem_append_right _ List.mem_cons_self, ?_⟩
    intro other member
    rcases List.mem_append.mp member with older | last
    · cases best with
      | none =>
          rw [show entries = [] from leads] at older
          exact absurd older List.not_mem_nil
      | some former =>
          exact UInt32.le_trans (leads.2 other older)
            (UInt32.le_of_lt (of_decide_eq_true won))
    · rw [List.mem_singleton.mp last]
      exact UInt32.le_refl _
  · rename_i lost
    cases best with
    | none => exact absurd rfl lost
    | some former =>
        refine ⟨List.mem_append_left _ leads.1, ?_⟩
        intro other member
        rcases List.mem_append.mp member with older | last
        · exact leads.2 other older
        · rw [List.mem_singleton.mp last]
          simpa [beats] using lost

/-- A fold over further entries keeps the leading one. -/
theorem Leads.foldl {entries : List EntryRef} {best : Option EntryRef}
    (leads : Leads entries best) (further : List EntryRef) :
    Leads (entries ++ further) (further.foldl Trie.better best) := by
  induction further generalizing entries best with
  | nil => simpa using leads
  | cons first rest ih =>
      rw [List.foldl_cons, List.append_cons]
      exact ih (leads.better first)

/-- What leads the entries that a packet satisfies is a right answer. -/
theorem Leads.answers {packet : Packet} {result : Option EntryRef}
    (leads : Leads (installed.filter (·.rule.matchSet.Admits packet)) result) :
    Answers installed packet result := by
  cases result with
  | none =>
      intro entry member satisfied
      exact List.filter_eq_nil_iff.mp leads entry member
        (decide_eq_true satisfied)
  | some best =>
      rcases leads with ⟨found, highest⟩
      rcases List.mem_filter.mp found with ⟨member, satisfied⟩
      refine ⟨member, of_decide_eq_true satisfied, ?_⟩
      intro entry listed admitted
      exact highest entry
        (List.mem_filter.mpr ⟨listed, decide_eq_true admitted⟩)

/-! ## Searches along a run -/

theorem Coherent.find?_answers (coherent : trie.Coherent chain)
    (packet : Packet) :
    Answers (trie.inventory chain) packet (trie.find? packet) := by
  rw [coherent.find?_eq]
  apply Leads.answers
  have start : Leads [] none := rfl
  simpa using start.foldl
    ((trie.inventory chain).filter (·.rule.matchSet.Admits packet))

theorem Reaches.find?_answers (reached : trie.Reaches installed)
    (packet : Packet) : Answers installed packet (trie.find? packet) := by
  obtain ⟨chain, formed, same⟩ := reached.formed
  exact (formed.coherent.find?_answers packet).perm same

/--
Along every run a search finds nothing exactly when no installed entry is satisfied,
and else an installed entry that the packet satisfies, of the highest priority among
these.
-/
theorem Reaches.find?_best (reached : trie.Reaches installed) (packet : Packet) :
    (trie.find? packet = none ↔
      ∀ entry ∈ installed, ¬ entry.rule.matchSet.Admits packet) ∧
      ∀ best, trie.find? packet = some best →
        best ∈ installed ∧ best.rule.matchSet.Admits packet ∧
          ∀ entry ∈ installed, entry.rule.matchSet.Admits packet →
            entry.rule.priority ≤ best.rule.priority := by
  have answers := reached.find?_answers packet
  refine ⟨answers.eq_none_iff, ?_⟩
  intro best found
  rw [found] at answers
  exact answers

/-- The host of the sample hits its own rule, though that of its network fits too. -/
theorem sample_find?_host :
    sample.Reaches [host, subnet] ∧
      sample.find? (Packet.empty.set .ipv4Dst 0x0A000001) = some host ∧
      subnet.rule.priority ≤ host.rule.priority := by
  have found : sample.find? (Packet.empty.set .ipv4Dst 0x0A000001) =
      some host := by decide
  have best := (reaches_sample.find?_best
    (Packet.empty.set .ipv4Dst 0x0A000001)).2 host found
  exact ⟨reaches_sample, found,
    best.2.2 subnet (List.mem_cons_of_mem _ List.mem_cons_self) (by decide)⟩

end PacketClassifier.Trie
