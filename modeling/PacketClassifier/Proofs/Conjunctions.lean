import Mathlib.Data.List.Induction
import Mathlib.Data.List.Nodup
import PacketClassifier.Proofs.PacketSpace

/-!
# Conjunctions built from lists

A conjunction is built by adding the matches of a list one after the other.  A match is
refused if a match on its field is stored already.  A wildcard is not stored, so it is noticed
only behind a match on its field that is.  Apart from wildcards the order does not count: two
orders that both succeed give the same conjunction, and two matches on one field that are no
wildcards are refused in every order.
-/

namespace PacketClassifier.MatchSet

variable {set otherSet : MatchSet} {m : Match} {list other : List Match}

/-! ## Adding one match -/

/-- A match is refused if its field is taken, and the field is reported. -/
theorem insert_of_taken (taken : ∃ held ∈ set.toList, held.field = m.field) :
    set.insert m = .error (.duplicateField m.field) := by
  obtain ⟨held, member, same⟩ := taken
  have found : set.get? m.field ≠ none :=
    fun free => get?_eq_none_iff.mp free held member same
  rw [insert, dif_neg found]

/-- A match on a free field is added to the others, unless it is a wildcard. -/
theorem insert_of_free (free : ¬ ∃ held ∈ set.toList, held.field = m.field) :
    ∃ after, set.insert m = .ok after ∧
      ∀ other, other ∈ after.toList ↔ other ∈ set.toList ∨ other = m ∧ ¬ m.IsWildcard := by
  have absent : set.get? m.field = none :=
    get?_eq_none_iff.mpr fun held member same => free ⟨held, member, same⟩
  rw [insert, dif_pos absent]
  split
  · rename_i wildcard
    exact ⟨set, rfl, fun other => by simp [wildcard]⟩
  · rename_i proper
    refine ⟨_, rfl, fun other => ?_⟩
    rw [mem_insertInOrder, or_comm]
    simp [proper]

/-! ## Adding all matches of a list -/

/-- The first of two matches does not take the field of the second. -/
def LeavesFree (earlier later : Match) : Prop :=
  earlier.field = later.field → earlier.IsWildcard

/-- The matches of a list that are no wildcards. -/
def constraints (list : List Match) : List Match :=
  list.filter (fun m => ¬ m.IsWildcard)

@[simp]
theorem mem_constraints : m ∈ constraints list ↔ m ∈ list ∧ ¬ m.IsWildcard := by
  simp [constraints]

theorem ofList_append_singleton (list : List Match) (m : Match) :
    ofList (list ++ [m]) = ofList list >>= fun set => set.insert m := by
  rw [ofList, List.foldlM_append]
  simp [ofList]

/--
What comes of a list: the conjunction of its matches without the wildcards, if each match
leaves the fields of the later ones free.
-/
theorem ofList_cases (list : List Match) :
    (list.Pairwise LeavesFree ∧
      ∃ set, ofList list = .ok set ∧ ∀ m, m ∈ set.toList ↔ m ∈ constraints list) ∨
    (¬ list.Pairwise LeavesFree ∧ ∃ field, ofList list = .error (.duplicateField field)) := by
  induction list using List.reverseRecOn with
  | nil => exact Or.inl ⟨.nil, empty, rfl, fun m => by simp [empty]⟩
  | append_singleton before last ih =>
      rw [ofList_append_singleton, List.pairwise_append]
      rcases ih with ⟨free, set, built, held⟩ | ⟨taken, field, refused⟩
      · rw [built]
        by_cases full : ∃ held ∈ set.toList, held.field = last.field
        · refine Or.inr ⟨?_, last.field, insert_of_taken full⟩
          rintro ⟨-, -, across⟩
          obtain ⟨earlier, stored, same⟩ := full
          have parts := mem_constraints.mp ((held earlier).mp stored)
          exact parts.2 (across earlier parts.1 last (List.mem_singleton_self _) same)
        · obtain ⟨after, added, holds⟩ := insert_of_free full
          refine Or.inl ⟨⟨free, List.pairwise_singleton _ _, ?_⟩, after, added, fun m => ?_⟩
          · intro earlier member later isLast same
            obtain rfl := List.mem_singleton.mp isLast
            by_contra constrains
            have stored := (held earlier).mpr (mem_constraints.mpr ⟨member, constrains⟩)
            exact full ⟨earlier, stored, same⟩
          · rw [holds, held, mem_constraints, mem_constraints, List.mem_append,
              List.mem_singleton]
            grind
      · rw [refused]
        exact Or.inr ⟨fun free => taken free.1, field, rfl⟩

theorem exists_ofList_eq_ok_iff :
    (∃ set, ofList list = .ok set) ↔ list.Pairwise LeavesFree := by
  rcases ofList_cases list with ⟨free, set, built, -⟩ | ⟨taken, field, refused⟩
  · exact iff_of_true ⟨set, built⟩ free
  · refine iff_of_false ?_ taken
    rintro ⟨set, built⟩
    cases refused.symm.trans built

theorem mem_of_ofList (built : ofList list = .ok set) :
    m ∈ set.toList ↔ m ∈ list ∧ ¬ m.IsWildcard := by
  rw [← mem_constraints]
  rcases ofList_cases list with ⟨-, found, foundBuilt, held⟩ | ⟨-, field, refused⟩
  · obtain rfl := Except.ok.inj (foundBuilt.symm.trans built)
    exact held m
  · cases refused.symm.trans built

/-- Nothing comes of a list in which a match takes the field of a later one. -/
theorem toOption_ofList_eq_none_iff :
    (ofList list).toOption = none ↔ ¬ list.Pairwise LeavesFree := by
  rw [← exists_ofList_eq_ok_iff]
  cases ofList list with
  | error cause => simp [Except.toOption]
  | ok set => simp [Except.toOption]

/-! ## The order of the matches -/

/-- Orders of the same matches that succeed give the same conjunction. -/
theorem ofList_perm (same : other.Perm list)
    (built : ofList list = .ok set) (otherBuilt : ofList other = .ok otherSet) :
    otherSet = set :=
  ext_mem fun m => by rw [mem_of_ofList otherBuilt, mem_of_ofList built, same.mem_iff]

/-- Matches on different fields leave each other's field free. -/
theorem leavesFree_of_nodup (distinct : (list.map Match.field).Nodup) :
    list.Pairwise LeavesFree :=
  (List.pairwise_map.mp distinct).imp fun different same => absurd same different

/-- Matches that are no wildcards leave no field free for another one. -/
theorem nodup_constraints_of_leavesFree (free : list.Pairwise LeavesFree) :
    ((constraints list).map Match.field).Nodup := by
  refine List.pairwise_map.mpr ((free.filter _).imp_of_mem ?_)
  intro earlier later member _ leaves same
  exact (mem_constraints.mp member).2 (leaves same)

/-- With the wildcards first, only matches that are no wildcards count. -/
theorem leavesFree_wildcards_append (distinct : ((constraints list).map Match.field).Nodup) :
    (list.filter (fun m : Match => m.IsWildcard) ++ constraints list).Pairwise LeavesFree := by
  have wildcard {m : Match} (member : m ∈ list.filter (fun m : Match => m.IsWildcard)) :
      m.IsWildcard := of_decide_eq_true (List.mem_filter.mp member).2
  refine List.pairwise_append.mpr ⟨?_, leavesFree_of_nodup distinct, ?_⟩
  · exact List.pairwise_of_forall_mem_list fun _ member _ _ _ => wildcard member
  · exact fun _ member _ _ _ => wildcard member

theorem wildcards_append_perm (list : List Match) :
    (list.filter (fun m : Match => m.IsWildcard) ++ constraints list).Perm list := by
  have negated : constraints list = list.filter (fun m => !decide m.IsWildcard) :=
    List.filter_congr fun m _ => by simp
  rw [negated]
  exact List.filter_append_perm _ _

/-- Matches on different fields make up a conjunction, the same in every order. -/
theorem toOption_ofList_perm_of_nodup (distinct : (list.map Match.field).Nodup)
    (same : other.Perm list) :
    (ofList other).toOption = (ofList list).toOption ∧ (ofList list).toOption ≠ none := by
  have otherDistinct := (same.map Match.field).nodup_iff.mpr distinct
  obtain ⟨set, built⟩ := exists_ofList_eq_ok_iff.mpr (leavesFree_of_nodup distinct)
  obtain ⟨otherSet, otherBuilt⟩ :=
    exists_ofList_eq_ok_iff.mpr (leavesFree_of_nodup otherDistinct)
  rw [built, otherBuilt, ofList_perm same built otherBuilt]
  exact ⟨rfl, by simp [Except.toOption]⟩

/-- Two matches on a field that are no wildcards are refused in every order. -/
theorem toOption_ofList_perm_of_repeated (repeated : ¬ ((constraints list).map Match.field).Nodup)
    (same : other.Perm list) : (ofList other).toOption = none := by
  rw [toOption_ofList_eq_none_iff]
  intro free
  have otherDistinct := nodup_constraints_of_leavesFree free
  exact repeated (((same.filter _).map Match.field).nodup_iff.mp otherDistinct)

/--
Building succeeds exactly if each match leaves the fields of the later ones free, with the
matches that are no wildcards, and orders that succeed agree.  All orders come to the same, and
fail exactly if two matches are on one field, just for the lists whose matches are on different
fields if those that are no wildcards are.
-/
theorem ofList_orders (list : List Match) :
    ((∃ set, ofList list = .ok set) ↔ list.Pairwise LeavesFree) ∧
      (∀ set, ofList list = .ok set → ∀ m, m ∈ set.toList ↔ m ∈ list ∧ ¬ m.IsWildcard) ∧
      (∀ other set otherSet, other.Perm list → ofList list = .ok set →
        ofList other = .ok otherSet → otherSet = set) ∧
      (((∀ other, other.Perm list → (ofList other).toOption = (ofList list).toOption) ∧
          ((ofList list).toOption = none ↔ ¬ (list.map Match.field).Nodup)) ↔
        (((constraints list).map Match.field).Nodup → (list.map Match.field).Nodup)) := by
  refine ⟨exists_ofList_eq_ok_iff, fun _ built _ => mem_of_ofList built,
    fun _ _ _ same built otherBuilt => ofList_perm same built otherBuilt, ?_⟩
  constructor
  · rintro ⟨orderFree, fails⟩ distinct
    by_contra repeated
    have sorted := orderFree _ (wildcards_append_perm list)
    rw [fails.mpr repeated, toOption_ofList_eq_none_iff] at sorted
    exact sorted (leavesFree_wildcards_append distinct)
  · intro settled
    by_cases distinct : ((constraints list).map Match.field).Nodup
    · have apart := settled distinct
      refine ⟨fun other same => (toOption_ofList_perm_of_nodup apart same).1, ?_⟩
      exact iff_of_false (toOption_ofList_perm_of_nodup apart (.refl list)).2
        (not_not_intro apart)
    · have fails := toOption_ofList_perm_of_repeated distinct (.refl list)
      refine ⟨fun other same => ?_, ?_⟩
      · rw [toOption_ofList_perm_of_repeated distinct same, fails]
      · exact iff_of_true fails
          fun apart => distinct (apart.sublist (List.filter_sublist.map _))

/-- Packets to a port of a host. -/
def http : Match := ⟨.tcpDst, 80, 0xFFFF, by decide, by decide⟩

/-- Packets to any port. -/
def anyPort : Match := ⟨.tcpDst, 0, 0, by decide, by decide⟩

/-- Packets from a network. -/
def network : Match := ⟨.ipv4Src, 0xCB000000, 0xFF000000, by decide, by decide⟩

/-- Matches on different fields may come in either order. -/
theorem network_ofList_orders :
    [network, http].Perm [http, network] ∧ ([http, network].map Match.field).Nodup ∧
      (ofList [http, network]).map toList = .ok [network, http] ∧
      (ofList [network, http]).toOption = (ofList [http, network]).toOption := by
  have same : [network, http].Perm [http, network] := List.Perm.swap _ _ _
  have apart : ([http, network].map Match.field).Nodup := by decide
  obtain ⟨-, -, -, law⟩ := ofList_orders [http, network]
  exact ⟨same, apart, by decide, (law.mpr fun _ => apart).1 _ same⟩

/-- A wildcard goes unnoticed in front of a match on its field, and is refused behind it. -/
theorem anyPort_order_counts :
    [anyPort, http].Perm [http, anyPort] ∧
      (ofList [anyPort, http]).map toList = .ok [http] ∧
      ofList [http, anyPort] = .error (.duplicateField .tcpDst) ∧
      ¬ ((ofList [anyPort, http]).toOption = none ↔
        ¬ ([anyPort, http].map Match.field).Nodup) :=
  ⟨List.Perm.swap _ _ _, by decide, by decide, by decide⟩

end PacketClassifier.MatchSet
