import PacketClassifier.Proofs.Trie.Nesting
import PacketClassifier.Proofs.Trie.Runs

/-!
# How deep searches recurse

A search calls itself for the inner chain of a node.  Along every run the calls within
one another are no more than the bits of all fields and the nodes that repeat the stem
of their owner; those are as many as the insertions that forked at the stem of an owner.
-/

namespace PacketClassifier

variable {trie : Trie} {chain : Chain} {entry again : EntryRef} {change : Change}
  {installed : List EntryRef} {owner : Option NodeId} {above : Option Match}
  {id : NodeId} {depth : Nat}

namespace Context

/-- The number of inner chains around the hole. -/
def nesting : Context → Nat
  | root => 0
  | inside _ _ _ _ outer => outer.nesting + 1
  | behind _ _ _ _ outer => outer.nesting

theorem nesting_add_height_le (context : Context) (chain : Chain) :
    context.nesting + chain.height ≤ (context.plug chain).height := by
  induction context generalizing chain with
  | root => simp [nesting, plug]
  | inside id stem own next outer ih =>
      have whole := ih (.node id stem own chain next)
      simp only [Chain.height] at whole
      simp only [nesting, plug]
      omega
  | behind id stem own inner outer ih =>
      have whole := ih (.node id stem own inner chain)
      simp only [Chain.height] at whole
      simp only [nesting, plug]
      omega

end Context

namespace Trie

/-! ## Owners -/

/-- The stem of the owner of a node. -/
def ownerStem? (trie : Trie) (node : TrieNode) : Option Match :=
  (node.owner >>= trie.node?).map TrieNode.stem

/-- The number of nodes that have the stem of their owner. -/
def repeats (trie : Trie) : Nat :=
  trie.nodes.toList.countP (fun node => trie.ownerStem? node = some node.stem)

/-- A node on the field of its owner is strictly narrower than the owner. -/
def StrictlyNested (trie : Trie) : Prop :=
  ∀ id node, trie.node? id = some node → ∀ owner ∈ trie.ownerStem? node,
    node.stem.field = owner.field →
      node.stem.IsSubmatch owner ∧ node.stem ≠ owner

/-- The nodes of a chain that repeat the stem of their owner, by their owners. -/
theorem Reads.countP_cells (reads : trie.Reads (chain.cells owner))
    (read : (owner >>= trie.node?).map TrieNode.stem = above) :
    (chain.cells owner).countP
        (fun cell => trie.ownerStem? cell.2 = some cell.2.stem) =
      chain.repeats above := by
  induction chain generalizing owner above with
  | empty => rfl
  | node id stem own inner next innerIH nextIH =>
      rcases reads.node with ⟨here, innerReads, nextReads⟩
      have below : ((some id) >>= trie.node?).map TrieNode.stem = some stem := by
        simp [here]
      rw [Chain.cells, List.countP_cons, List.countP_append,
        innerIH innerReads below, nextIH nextReads read]
      simp only [ownerStem?, read, decide_eq_true_eq, Chain.repeats]
      omega

theorem Reads.under (reads : trie.Reads (chain.cells owner))
    (read : (owner >>= trie.node?).map TrieNode.stem = above)
    (nested : chain.Nested above) :
    ∀ cell ∈ chain.cells owner, ∀ stem ∈ trie.ownerStem? cell.2,
      cell.2.stem.Under stem := by
  induction chain generalizing owner above with
  | empty => exact fun cell member => absurd member List.not_mem_nil
  | node id stem own inner next innerIH nextIH =>
      rcases reads.node with ⟨here, innerReads, nextReads⟩
      rcases nested with ⟨⟨-, under⟩, innerNested, nextNested⟩
      have below : ((some id) >>= trie.node?).map TrieNode.stem = some stem := by
        simp [here]
      intro cell member
      rw [Chain.cells, List.mem_cons, List.mem_append] at member
      rcases member with rfl | inInner | inNext
      · simpa only [ownerStem?, read] using under
      · exact innerIH innerReads below innerNested cell inInner
      · exact nextIH nextReads read nextNested cell inNext

theorem Represents.repeats_eq (represents : trie.Represents chain) :
    trie.repeats = chain.repeats none := by
  have counted : (chain.cells none).countP
      (fun cell => trie.ownerStem? cell.2 = some cell.2.stem) = chain.repeats none :=
    represents.holds.read.countP_cells rfl
  rw [← counted, repeats, ← represents.holds.nodes.countP_eq, List.countP_map]
  rfl

/-- A node on the field of its owner is narrower than the owner, or the same. -/
theorem Represents.isSubmatch (represents : trie.Represents chain)
    (nested : chain.Nested none) {node : TrieNode} (read : trie.node? id = some node)
    {stem : Match} (owned : stem ∈ trie.ownerStem? node)
    (same : node.stem.field = stem.field) : node.stem.IsSubmatch stem := by
  have member := represents.holds.mem_of_node? read
  have under := represents.holds.read.under rfl nested (id, node) member stem owned
  exact (under.isSubmatch same).2

theorem Represents.strictlyNested_iff (represents : trie.Represents chain)
    (nested : chain.Nested none) : trie.StrictlyNested ↔ trie.repeats = 0 := by
  rw [repeats, List.countP_eq_zero]
  constructor
  · intro strict node member repeated
    rw [← represents.holds.nodes.mem_iff, List.mem_map] at member
    obtain ⟨cell, listed, rfl⟩ := member
    have owned := of_decide_eq_true repeated
    exact (strict cell.1 cell.2 (represents.holds.read cell listed) _ owned rfl).2 rfl
  · intro none id node read stem owned same
    refine ⟨represents.isSubmatch nested read owned same, ?_⟩
    rintro rfl
    have member : node ∈ trie.nodes.toList := by
      rw [Array.mem_toList_iff]
      exact Array.mem_of_getElem? read
    exact none node member (decide_eq_true owned)

/-! ## Insertions that add a repeating node -/

/-- The way of the matches comes to a fork, at the stem of the owner of a chain. -/
def addsRepeatFrom (trie : Trie) : (fuel : Nat) → Option NodeId →
    (above : Option Match) → List Match → Bool
  | 0, _, _, _ | _, none, _, _ | _, _, _, [] => false
  | fuel + 1, some id, above, candidate :: rest =>
      match trie.node? id with
      | none => false
      | some node =>
          match node.stem.fit candidate with
          | .apart => addsRepeatFrom trie fuel node.next above (candidate :: rest)
          | .inside =>
              addsRepeatFrom trie fuel node.inner (some node.stem) (candidate :: rest)
          | .equal => addsRepeatFrom trie fuel node.inner (some node.stem) rest
          | .around => false
          | .fork shared => above = some shared

/-- An insertion of the entry adds a node with the stem of its owner. -/
def addsRepeat (trie : Trie) (entry : EntryRef) : Bool :=
  trie.addsRepeatFrom trie.nodes.size trie.root none entry.rule.matchSet.toList

theorem Reads.addsRepeatFrom (reads : trie.Reads (chain.cells owner))
    {fuel : Nat} (enough : chain.size ≤ fuel) (above : Option Match)
    (stems : List Match) :
    trie.addsRepeatFrom fuel chain.head? above stems =
      chain.addsRepeat above stems := by
  induction chain generalizing owner above stems fuel with
  | empty => cases fuel <;> cases stems <;> rfl
  | node id stem own inner next innerIH nextIH =>
      simp only [Chain.size] at enough
      obtain ⟨fuel, rfl⟩ : ∃ less, fuel = less + 1 := ⟨fuel - 1, by omega⟩
      rcases reads.node with ⟨here, innerReads, nextReads⟩
      cases stems with
      | nil => rfl
      | cons candidate rest =>
          simp only [Trie.addsRepeatFrom, Chain.head?_node, here, Chain.addsRepeat]
          cases stem.fit candidate with
          | apart => exact nextIH nextReads (by omega) above (candidate :: rest)
          | inside => exact innerIH innerReads (by omega) _ (candidate :: rest)
          | equal => exact innerIH innerReads (by omega) _ rest
          | around => rfl
          | fork shared => rfl

theorem Represents.addsRepeat_eq (represents : trie.Represents chain)
    (entry : EntryRef) :
    trie.addsRepeat entry = chain.addsRepeat none entry.rule.matchSet.toList := by
  rw [addsRepeat, represents.root]
  exact represents.holds.read.addsRepeatFrom (Nat.le_of_eq represents.size_chain) _ _

/-! ## Calls within one another -/

/-- A search comes to a node with `depth` calls for chains within one another. -/
inductive Meets (trie : Trie) : NodeId → (depth : Nat) → Prop
  | root {id : NodeId} (first : trie.root = some id) : Meets trie id 1
  | inner {id inner : NodeId} {node : TrieNode} {depth : Nat}
      (met : Meets trie id depth) (read : trie.node? id = some node)
      (linked : node.inner = some inner) : Meets trie inner (depth + 1)
  | next {id next : NodeId} {node : TrieNode} {depth : Nat}
      (met : Meets trie id depth) (read : trie.node? id = some node)
      (linked : node.next = some next) : Meets trie next depth

/-- A search that comes to a node has come down the tree that the trie represents. -/
theorem Meets.exists_context (met : trie.Meets id depth)
    (represents : trie.Represents chain) :
    ∃ (context : Context) (sub : Chain), chain = context.plug sub ∧ sub.head? = some id ∧
      depth = context.nesting + 1 := by
  induction met with
  | root first => exact ⟨.root, chain, rfl, represents.root ▸ first, rfl⟩
  | inner met read linked ih =>
      obtain ⟨context, sub, rfl, head, rfl⟩ := ih
      cases sub with
      | empty => cases head
      | node id stem own inner next =>
          obtain rfl := Option.some.inj head
          have here := (represents_plug_iff.mp represents).node? List.mem_cons_self
          obtain rfl := Option.some.inj (here.symm.trans read)
          exact ⟨.inside id stem own next context, inner, rfl, linked, rfl⟩
  | next met read linked ih =>
      obtain ⟨context, sub, rfl, head, rfl⟩ := ih
      cases sub with
      | empty => cases head
      | node id stem own inner next =>
          obtain rfl := Option.some.inj head
          have here := (represents_plug_iff.mp represents).node? List.mem_cons_self
          obtain rfl := Option.some.inj (here.symm.trans read)
          exact ⟨.behind id stem own inner context, next, rfl, linked, rfl⟩

theorem Meets.depth_le (met : trie.Meets id depth) (represents : trie.Represents chain)
    (nested : chain.Nested none) : depth ≤ Field.totalBits + trie.repeats := by
  obtain ⟨context, sub, rfl, head, rfl⟩ := met.exists_context represents
  have bound := nested.height_le
  have whole := context.nesting_add_height_le sub
  have entered : 1 ≤ sub.height := by
    cases sub with
    | empty => cases head
    | node id stem own inner next =>
        simp only [Chain.height]
        omega
  rw [represents.repeats_eq]
  simp only [Option.elim_none, Nat.zero_add] at bound
  omega

/-! ## Runs -/

/-- A property of trees that insertions and exchanges keep holds along every run. -/
theorem WellFormed.regrow_induction {property : Chain → Prop} (empty : property .empty)
    (place : ∀ chain entry fresh, property chain →
      property (chain.place entry fresh entry.rule.matchSet.toList))
    (exchange : ∀ chain (old new : EntryRef), new.rule.key = old.rule.key →
      property chain → property (chain.exchange old new))
    (formed : trie.WellFormed chain) (holds : property chain)
    (planned : trie.Plans change) : property (trie.regrow chain change) := by
  cases planned with
  | clear => exact empty
  | add planned =>
      rcases formed.planAdd_cases planned with ⟨old, -, same, rfl⟩ | ⟨-, -, rfl⟩
      · exact exchange chain old _ same holds
      · exact place chain _ _ holds

/-- Along every run there is a tree that has every property of that kind. -/
theorem Reaches.exists_chain {property : Chain → Prop} (empty : property .empty)
    (place : ∀ chain entry fresh, property chain →
      property (chain.place entry fresh entry.rule.matchSet.toList))
    (exchange : ∀ chain (old new : EntryRef), new.rule.key = old.rule.key →
      property chain → property (chain.exchange old new))
    (reached : trie.Reaches installed) :
    ∃ chain, trie.WellFormed chain ∧ property chain := by
  induction reached with
  | empty => exact ⟨.empty, WellFormed.empty, empty⟩
  | step reached planned ih =>
      obtain ⟨chain, formed, holds⟩ := ih
      exact ⟨_, (formed.apply planned).1,
        formed.regrow_induction empty place exchange holds planned⟩

theorem Reaches.nested (reached : trie.Reaches installed) :
    ∃ chain, trie.WellFormed chain ∧ chain.Nested none :=
  reached.exists_chain trivial
    (fun _ entry _ nested => nested.place (.start entry.rule.matchSet))
    (fun _ old new _ nested => nested.exchange old new)

/-- The number of nodes that repeat the stem of their owner, after a change. -/
def repeatsAfter (trie : Trie) : Change → Nat
  | .insert entry => trie.repeats + if trie.addsRepeat entry then 1 else 0
  | .replace _ _ | .remove _ => trie.repeats
  | .clear => 0

theorem WellFormed.repeats_apply (formed : trie.WellFormed chain)
    (planned : trie.Plans change) :
    (trie.apply change).repeats = trie.repeatsAfter change := by
  have before := formed.represents.repeats_eq
  have after := (formed.apply planned).1.represents.repeats_eq
  cases planned with
  | clear => rfl
  | add planned =>
      rcases formed.planAdd_cases planned with ⟨old, -, -, rfl⟩ | ⟨-, -, rfl⟩
      · rw [after, repeatsAfter, before]
        exact Chain.repeats_exchange old _ chain none
      · rw [after, repeatsAfter, before, formed.represents.addsRepeat_eq]
        exact Chain.repeats_place chain _ _ (.start _)

/-- An insertion that adds a repeating node adds another one when it is made again. -/
theorem WellFormed.addsRepeat_apply (formed : trie.WellFormed chain)
    (planned : trie.Plans (.insert entry)) (adds : trie.addsRepeat entry = true)
    (sets : again.rule.matchSet = entry.rule.matchSet) :
    (trie.apply (.insert entry)).addsRepeat again = true := by
  rw [formed.represents.addsRepeat_eq] at adds
  rw [(formed.apply planned).1.represents.addsRepeat_eq, sets]
  exact Chain.addsRepeat_place chain entry _ adds

/--
Along every run a node on the field of its owner is narrower than the owner, or it
repeats the stem of the owner.  Calls of a search nest within the bits of all fields
and the number of repeating nodes.  The only changes that add such a node are the
insertions that fork at the stem of an owner, and they add another one every time.
-/
theorem Reaches.nesting (reached : trie.Reaches installed) :
    (∀ id node, trie.node? id = some node → ∀ owner ∈ trie.ownerStem? node,
      node.stem.field = owner.field → node.stem.IsSubmatch owner) ∧
    (trie.StrictlyNested ↔ trie.repeats = 0) ∧
    (∀ id depth, trie.Meets id depth → depth ≤ Field.totalBits + trie.repeats) ∧
    (∀ change, trie.Plans change →
      (trie.apply change).repeats = trie.repeatsAfter change) ∧
    ∀ entry again : EntryRef, trie.Plans (.insert entry) →
      trie.addsRepeat entry = true → again.rule.matchSet = entry.rule.matchSet →
        (trie.apply (.insert entry)).addsRepeat again = true := by
  obtain ⟨chain, formed, nested⟩ := reached.nested
  exact ⟨fun id node read owner owned =>
      formed.represents.isSubmatch nested read owned,
    formed.represents.strictlyNested_iff nested,
    fun id depth met => met.depth_le formed.represents nested,
    fun change planned => formed.repeats_apply planned,
    fun entry again planned adds sets => formed.addsRepeat_apply planned adds sets⟩

/-- A rule for a part of the network of `subnet`. -/
def campus : EntryRef where
  id := 2
  rule := {
    priority := 2
    matchSet := ⟨[⟨.ipv4Dst, 0x0A010000, 0xFFFF0000, by decide, by decide⟩],
      by simp [InFieldOrder], by decide⟩ }

/-- A rule for another part, which shares with the first what the network has. -/
def office : EntryRef where
  id := 3
  rule := {
    priority := 3
    matchSet := ⟨[⟨.ipv4Dst, 0x0A800000, 0xFFFF0000, by decide, by decide⟩],
      by simp [InFieldOrder], by decide⟩ }

/-- The trie with a network and a part of it. -/
def nestedTwo : Trie :=
  (Trie.empty.apply (.insert subnet)).apply (.insert campus)

/-- The trie with a network and two parts of it. -/
def nestedThree : Trie :=
  nestedTwo.apply (.insert office)

theorem reaches_nestedTwo : nestedTwo.Reaches [campus, subnet] := by
  have first : Trie.empty.Plans (.insert subnet) :=
    .add (show Trie.empty.planAdd subnet true = .ok (.insert subnet) by decide)
  have second : (Trie.empty.apply (.insert subnet)).Plans (.insert campus) :=
    .add (show (Trie.empty.apply (.insert subnet)).planAdd campus true =
      .ok (.insert campus) by decide)
  exact (Reaches.empty.step first).step second

theorem plans_office : nestedTwo.Plans (.insert office) :=
  .add (show nestedTwo.planAdd office true = .ok (.insert office) by decide)

theorem nestedTwo_nesting :
    nestedTwo.Reaches [campus, subnet] ∧ nestedTwo.StrictlyNested ∧
      (∀ id depth, nestedTwo.Meets id depth → depth ≤ Field.totalBits) ∧
      nestedTwo.Plans (.insert office) ∧ nestedThree.repeats = 1 := by
  have facts := reaches_nestedTwo.nesting
  have plain : nestedTwo.repeats = 0 := by decide
  have adds : nestedTwo.addsRepeat office = true := by decide
  refine ⟨reaches_nestedTwo, facts.2.1.mpr plain, ?_, plans_office, ?_⟩
  · intro id depth met
    have bound := facts.2.2.1 id depth met
    rwa [plain] at bound
  · have grown := facts.2.2.2.1 _ plans_office
    rwa [repeatsAfter, plain, adds] at grown

/-- The part that is added last forks with the other at the stem of the network. -/
theorem nestedThree_not_strictlyNested :
    nestedThree.Reaches [office, campus, subnet] ∧ ¬ nestedThree.StrictlyNested := by
  refine ⟨reaches_nestedTwo.step plans_office, fun strict => ?_⟩
  have read : nestedThree.node? ⟨2⟩ = some {
      stem := ⟨.ipv4Dst, 0x0A000000, 0xFF000000, by decide, by decide⟩
      inner := some ⟨1⟩, owner := some ⟨0⟩, highest := some 3 } := by decide
  exact (strict _ _ read _ rfl rfl).2 rfl

end Trie

end PacketClassifier
