import PacketClassifier.MatchSet.Listing
import PacketClassifier.Proofs.Conjunctions
import PacketClassifier.Proofs.PriorityOrder

/-!
# Matches offered one after the other

Bisection finds the match on a field in a list in field order, or the place of one.  So a list
that matches are offered to stays in field order, and it holds what a conjunction holds: on each
field the first match offered that is no wildcard.  Refused matches leave no trace.
-/

namespace PacketClassifier

/-! ## Bisection for a rank -/

/-- Where the positions of lower ranks come first, a search finds the rank or its place. -/
theorem Bisection.search_eq {rank : Nat → Ordering} {size stop : Nat}
    (run : ∀ i < size, rank i ≠ .gt ↔ i < stop) (ends : stop ≤ size) :
    search rank size =
      if 0 < stop ∧ rank (stop - 1) = .eq then .ok (stop - 1) else .error stop := by
  unfold search
  split
  · rename_i none
    obtain rfl : stop = 0 := by omega
    rfl
  · rename_i several
    have probes : ∀ i < 0 + size, (rank i != .gt) = true ↔ i < stop := by
      simpa using run
    by_cases started : 0 < stop
    · have last : narrow (fun i => rank i != .gt) 0 size = stop - 1 := by
        have closing := narrow_eq_last probes started (by omega)
        omega
      have notAbove := (run (stop - 1) (by omega)).mpr (by omega)
      simp only [last, started, true_and]
      cases here : rank (stop - 1) with
      | lt => simp [Nat.sub_add_cancel started]
      | eq => simp
      | gt => exact absurd here notAbove
    · obtain rfl : stop = 0 := by omega
      have absent : ∀ i < 0 + size, ¬ (rank i != .gt) = true :=
        fun i below found => Nat.not_lt_zero i ((probes i below).mp found)
      have above : rank 0 = .gt := by
        simpa using absent 0 (by omega)
      simp [narrow_eq_base absent, above]

namespace Listing

variable {list before after : List Match} {field : Field} {m found : Match}

/-! ## The place of a field -/

/-- A list in field order parts into the matches before a field, on it, and after it. -/
theorem exists_split (ordered : InFieldOrder list) (field : Field) :
    ∃ before after, (∀ m ∈ before, m.field.index < field.index) ∧
      (∀ m ∈ after, field.index < m.field.index) ∧
      (list = before ++ after ∨
        ∃ found, found.field = field ∧ list = before ++ found :: after) := by
  induction list with
  | nil => exact ⟨[], [], by simp, by simp, Or.inl rfl⟩
  | cons first rest ih =>
      have parts := List.pairwise_cons.mp ordered
      rcases Nat.lt_trichotomy first.field.index field.index with lower | same | higher
      · obtain ⟨before, after, below, above, split⟩ := ih parts.2
        refine ⟨first :: before, after, List.forall_mem_cons.mpr ⟨lower, below⟩, above, ?_⟩
        rcases split with rfl | ⟨found, onField, rfl⟩
        · exact Or.inl rfl
        · exact Or.inr ⟨found, onField, rfl⟩
      · refine ⟨[], rest, by simp, fun m member => same ▸ parts.1 m member, Or.inr ?_⟩
        exact ⟨first, Field.index_injective same, rfl⟩
      · refine ⟨[], first :: rest, by simp, List.forall_mem_cons.mpr ⟨higher, ?_⟩, Or.inl rfl⟩
        exact fun m member => Nat.lt_trans higher (parts.1 m member)

theorem rank_eq {position : Nat} (here : list[position]? = some m) :
    rank list field position = compare m.field.index field.index := by
  rw [rank, here, Option.elim_some]

/-- The matches on fields up to one come first, and bisection finds where they end. -/
theorem locate_append {upTo : List Match} (low : ∀ m ∈ upTo, m.field.index ≤ field.index)
    (high : ∀ m ∈ after, field.index < m.field.index) :
    locate (upTo ++ after) field =
      if 0 < upTo.length ∧ rank (upTo ++ after) field (upTo.length - 1) = .eq then
        .ok (upTo.length - 1)
      else
        .error upTo.length := by
  refine Bisection.search_eq (fun i below => ?_) (by simp)
  have here := List.getElem?_eq_getElem below
  rw [rank_eq here, Nat.compare_ne_gt]
  by_cases inside : i < upTo.length
  · rw [List.getElem_append_left inside]
    exact iff_of_true (low _ (List.getElem_mem inside)) inside
  · rw [List.getElem_append_right (Nat.not_lt.mp inside)]
    exact iff_of_false (Nat.not_le.mpr (high _ (List.getElem_mem _))) inside

/-- The match on a field is found where it is. -/
theorem locate_found (below : ∀ m ∈ before, m.field.index < found.field.index)
    (above : ∀ m ∈ after, found.field.index < m.field.index) :
    locate (before ++ found :: after) found.field = .ok before.length := by
  have low : ∀ m ∈ before ++ [found], m.field.index ≤ found.field.index := by
    intro m member
    rcases List.mem_append.mp member with earlier | itself
    · exact Nat.le_of_lt (below m earlier)
    · rw [List.mem_singleton.mp itself]
  have last : (before ++ [found]).length - 1 = before.length := by simp
  have onField : rank (before ++ [found] ++ after) found.field before.length = .eq := by
    rw [rank_eq (m := found) (by simp), Nat.compare_eq_eq]
  rw [List.append_cons, locate_append low above, last, if_pos ⟨by simp, onField⟩]

/-- Where no match is on a field, its place is behind the matches on fields before it. -/
theorem locate_absent (below : ∀ m ∈ before, m.field.index < field.index)
    (above : ∀ m ∈ after, field.index < m.field.index) :
    locate (before ++ after) field = .error before.length := by
  rw [locate_append (fun m member => Nat.le_of_lt (below m member)) above, if_neg]
  rintro ⟨nonempty, same⟩
  have inside : before.length - 1 < before.length := by omega
  have last : (before ++ after)[before.length - 1]? = some before[before.length - 1] := by
    rw [List.getElem?_append_left inside, List.getElem?_eq_getElem inside]
  rw [rank_eq last, Nat.compare_eq_eq] at same
  exact Nat.ne_of_lt (below _ (List.getElem_mem inside)) same

/-! ## A list in field order is a conjunction -/

theorem insertInOrder_append (below : ∀ other ∈ before, other.field.index < m.field.index)
    (above : ∀ other ∈ after, m.field.index < other.field.index) :
    insertInOrder m (before ++ after) = before ++ m :: after := by
  induction before with
  | nil =>
      cases after with
      | nil => rfl
      | cons next later => exact if_pos (above next List.mem_cons_self)
  | cons first rest ih =>
      have parts := List.forall_mem_cons.mp below
      rw [List.cons_append, insertInOrder, if_neg (Nat.lt_asymm parts.1), ih parts.2]
      rfl

theorem insertIdx_append (before after : List Match) (m : Match) :
    (before ++ after).insertIdx before.length m = before ++ m :: after := by
  induction before with
  | nil => rfl
  | cons first rest ih =>
      rw [List.cons_append, List.length_cons, List.insertIdx_succ_cons, ih]
      rfl

theorem get?_toList (set : MatchSet) (field : Field) :
    get? set.toList field = set.get? field := by
  obtain ⟨before, after, below, above, split⟩ := exists_split set.ordered field
  rcases split with free | ⟨found, rfl, taken⟩
  · rw [get?, free, locate_absent below above, eq_comm, MatchSet.get?_eq_none_iff, free]
    intro m member same
    rcases List.mem_append.mp member with earlier | later
    · exact Nat.lt_irrefl _ (same ▸ below m earlier)
    · exact Nat.lt_irrefl _ (same ▸ above m later)
  · have stored : found ∈ set.toList := by simp [taken]
    rw [get?, taken, locate_found below above, MatchSet.get?_of_mem stored]
    simp

/-- A list refuses what the conjunction refuses, and comes to the same list otherwise. -/
theorem offer_toList (set : MatchSet) (m : Match) :
    offer set.toList m = ((set.insert m).map fun _ => (), (set.offer m).toList) := by
  have found := get?_toList set m.field
  obtain ⟨before, after, below, above, split⟩ := exists_split set.ordered m.field
  rcases split with free | ⟨held, onField, taken⟩
  · have located : locate set.toList m.field = .error before.length :=
      free ▸ locate_absent below above
    have vacant : set.get? m.field = none := by rw [← found, get?, located]
    have placed : insertInOrder m set.toList = set.toList.insertIdx before.length m := by
      rw [free, insertInOrder_append below above, insertIdx_append]
    by_cases wildcard : m.IsWildcard <;>
      simp [offer, MatchSet.offer, MatchSet.insert, located, vacant, wildcard, placed,
        Except.map, Except.toOption]
  · have located : locate set.toList m.field = .ok before.length := by
      rw [taken, ← onField]
      exact locate_found (onField ▸ below) (onField ▸ above)
    have stored : held ∈ set.toList := by simp [taken]
    rw [offer, MatchSet.offer, MatchSet.insert_of_taken ⟨held, stored, onField⟩, located]
    rfl

theorem offerAll_toList (set : MatchSet) (offers : List Match) :
    offerAll set.toList offers = (set.offerAll offers).toList := by
  induction offers generalizing set with
  | nil => rfl
  | cons m later ih =>
      rw [offerAll, List.foldl_cons, offer_toList, ← offerAll, ih]
      rfl

end Listing

/-! ## The first match offered on a field -/

/-- The first match on a field that is no wildcard. -/
def firstOn (offers : List Match) (field : Field) : Option Match :=
  offers.find? fun m => m.field = field ∧ ¬ m.IsWildcard

theorem firstOn_cons (m : Match) (later : List Match) (field : Field) :
    firstOn (m :: later) field =
      (if m.field = field ∧ ¬ m.IsWildcard then some m else none).or (firstOn later field) := by
  rw [firstOn, List.find?_cons]
  split
  · rename_i first
    rw [if_pos (of_decide_eq_true first), Option.some_or]
  · rename_i other
    rw [if_neg (of_decide_eq_false other), Option.none_or, firstOn]

namespace MatchSet

variable {set : MatchSet} {m : Match}

/-- An offer on a field that is taken leaves the conjunction as it is. -/
theorem offer_of_taken (taken : ∃ held ∈ set.toList, held.field = m.field) :
    set.offer m = set := by
  rw [offer, insert_of_taken taken]
  rfl

/-- What an offer stores: the match, if it is no wildcard and its field is free. -/
theorem get?_offer (set : MatchSet) (m : Match) (field : Field) :
    (set.offer m).get? field =
      (set.get? field).or (if m.field = field ∧ ¬ m.IsWildcard then some m else none) := by
  by_cases taken : ∃ held ∈ set.toList, held.field = m.field
  · rw [offer_of_taken taken]
    by_cases onField : m.field = field
    · obtain ⟨held, member, same⟩ := taken
      rw [← onField, ← same, get?_of_mem member, Option.some_or]
    · simp [onField]
  · obtain ⟨after, added, holds⟩ := insert_of_free taken
    have arrived : set.offer m = after := by rw [offer, added]; rfl
    rw [arrived]
    cases own : set.get? field with
    | some held =>
        obtain ⟨member, rfl⟩ := mem_of_get? own
        rw [get?_of_mem ((holds held).mpr (Or.inl member)), Option.some_or]
    | none =>
        rw [Option.none_or]
        split
        · rename_i fits
          rw [← fits.1, get?_of_mem ((holds m).mpr (Or.inr ⟨rfl, fits.2⟩))]
        · rename_i unfit
          rw [get?_eq_none_iff] at own ⊢
          intro other member onField
          rcases (holds other).mp member with old | ⟨rfl, proper⟩
          · exact own other old onField
          · exact unfit ⟨onField, proper⟩

/-- After several offers a field has the match it had, or the first one offered on it. -/
theorem get?_offerAll (set : MatchSet) (offers : List Match) (field : Field) :
    (set.offerAll offers).get? field =
      (set.get? field).or (firstOn offers field) := by
  induction offers generalizing set with
  | nil => simp [offerAll, firstOn]
  | cons m later ih =>
      rw [offerAll, List.foldl_cons, ← offerAll, ih, get?_offer, Option.or_assoc, firstOn_cons]

end MatchSet

/--
Whatever is offered to a list that starts empty, the list is in field order and has no wildcard,
and its matches keep to their fields and fix no bit outside their masks.  It holds the first
match offered on each field that is no wildcard, and finds it.  Refused are the further matches
on such a field, and they leave the list as it is.  It is the list of the conjunction that is
made up by the same offers, which finds the same matches and refuses the same.
-/
theorem Listing.offerAll_firsts (offers : List Match) :
    InFieldOrder (offerAll [] offers) ∧
      (∀ m ∈ offerAll [] offers, ¬ m.IsWildcard ∧ m.field.Holds m.value ∧
        m.field.Holds m.mask ∧ ∀ i, m.value.getLsbD i = true → m.mask.getLsbD i = true) ∧
      (∀ m, m ∈ offerAll [] offers ↔ firstOn offers m.field = some m) ∧
      (∀ field, get? (offerAll [] offers) field = firstOn offers field) ∧
      (∀ m, ((offer (offerAll [] offers) m).1 = .ok () ↔ firstOn offers m.field = none) ∧
        ∀ cause, (offer (offerAll [] offers) m).1 = .error cause →
          cause = .duplicateField m.field ∧
            (offer (offerAll [] offers) m).2 = offerAll [] offers) ∧
      offerAll [] offers = (MatchSet.empty.offerAll offers).toList ∧
      (∀ field, (MatchSet.empty.offerAll offers).get? field = firstOn offers field) ∧
      ∀ m, offer (offerAll [] offers) m =
        (((MatchSet.empty.offerAll offers).insert m).map fun _ => (),
          ((MatchSet.empty.offerAll offers).offer m).toList) := by
  have listed : offerAll [] offers = (MatchSet.empty.offerAll offers).toList :=
    offerAll_toList .empty offers
  have firsts (field : Field) :
      (MatchSet.empty.offerAll offers).get? field = firstOn offers field := by
    rw [MatchSet.get?_offerAll]
    rfl
  rw [listed]
  refine ⟨MatchSet.ordered _, fun m member => ⟨MatchSet.proper _ m member, m.holds_value,
    m.mask_holds, fun i set => m.mask_of_value set⟩, fun m => ?_, fun field => ?_,
    fun m => ?_, rfl, firsts, offer_toList _⟩
  · rw [← firsts]
    exact ⟨MatchSet.get?_of_mem, fun found => (MatchSet.mem_of_get? found).1⟩
  · rw [get?_toList, firsts]
  · rw [offer_toList, ← firsts]
    cases own : (MatchSet.empty.offerAll offers).get? m.field with
    | some held =>
        obtain ⟨member, same⟩ := MatchSet.mem_of_get? own
        have taken : ∃ held ∈ (MatchSet.empty.offerAll offers).toList, held.field = m.field :=
          ⟨held, member, same⟩
        rw [MatchSet.insert_of_taken taken, MatchSet.offer_of_taken taken]
        simp [Except.map, eq_comm]
    | none =>
        obtain ⟨after, added, -⟩ := MatchSet.insert_of_free (m := m)
          fun ⟨held, member, same⟩ => MatchSet.get?_eq_none_iff.mp own held member same
        rw [added]
        simp [Except.map]

/-- Packets from another network. -/
def MatchSet.otherNetwork : Match := ⟨.ipv4Src, 0x0B000000, 0xFFF00000, by decide, by decide⟩

/-- A wildcard leaves its field free; a second network is refused and the first one is found. -/
theorem MatchSet.offers_networks :
    Listing.get? (Listing.offerAll [] [anyPort, http, network, otherNetwork]) .ipv4Src =
        some network ∧
      Listing.get? (Listing.offerAll [] [anyPort, http, network, otherNetwork]) .tcpDst =
        some http ∧
      (Listing.offer (Listing.offerAll [] [anyPort, http, network]) otherNetwork).1 ≠ .ok () := by
  obtain ⟨-, -, -, finds, -⟩ :=
    Listing.offerAll_firsts [anyPort, http, network, otherNetwork]
  obtain ⟨-, -, -, -, refuses, -⟩ := Listing.offerAll_firsts [anyPort, http, network]
  refine ⟨(finds .ipv4Src).trans (by decide), (finds .tcpDst).trans (by decide), ?_⟩
  exact mt (refuses otherNetwork).1.mp (by decide)

end PacketClassifier
