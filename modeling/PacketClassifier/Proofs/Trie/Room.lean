import PacketClassifier.Proofs.Trie.Sharing

/-!
# Room in the arena

An insertion keeps the nodes of a trie under their numbers, with their stems and entries, save
that one node may get the new entry.  It adds at most one node for each match, and one.  It is
planned only where that many fit, so the nodes of a trie that comes about can be numbered, and
no number is cut off.

The loops of an insertion end by themselves: more fuel changes nothing.  A descent that has
a result keeps it, and raising a priority leaves one node less to raise at every step.
-/

namespace PacketClassifier

/-- What a node stores: its stem, and the entries there. -/
def TrieNode.content (node : TrieNode) : Match × List EntryRef :=
  (node.stem, node.entries)

namespace Trie

variable {trie grown : Trie} {entry : EntryRef} {link : TrieLink} {owner : Option NodeId}
  {stems : List Match} {installed : List EntryRef}

/-! ## What is stored -/

/-- What the nodes store, in arena order. -/
def contents (trie : Trie) : List (Match × List EntryRef) :=
  trie.nodes.toList.map TrieNode.content

@[simp]
theorem length_contents (trie : Trie) : trie.contents.length = trie.nodes.size := by
  simp [contents]

theorem getElem?_contents (trie : Trie) (position : Nat) :
    trie.contents[position]? = trie.nodes[position]?.map TrieNode.content := by
  simp [contents]

/-- A change of a node changes what is stored there alone. -/
theorem contents_modifyNode (trie : Trie) (id : NodeId) {change : TrieNode → TrieNode}
    {stored : Match × List EntryRef → Match × List EntryRef}
    (changes : ∀ node, (change node).content = stored node.content) :
    (trie.modifyNode id change).contents = trie.contents.modify id.index stored := by
  refine List.ext_getElem? fun position => ?_
  rw [List.getElem?_modify, getElem?_contents, getElem?_contents, modifyNode,
    Array.getElem?_modify]
  split <;> simp [changes, Function.comp_def]

/-- Links and cached priorities do not count for what is stored. -/
theorem contents_relink (trie : Trie) (id : NodeId) {change : TrieNode → TrieNode}
    (keeps : ∀ node, (change node).content = node.content) :
    (trie.modifyNode id change).contents = trie.contents :=
  (contents_modifyNode trie id keeps).trans (List.modify_id _ _)

@[simp]
theorem contents_raiseFrom (priority : UInt32) (fuel : Nat) (cursor : Option NodeId)
    (trie : Trie) : (raiseFrom priority fuel cursor trie).contents = trie.contents := by
  induction fuel generalizing cursor trie with
  | zero => rfl
  | succ fuel ih =>
      cases cursor with
      | none => rfl
      | some id =>
          rw [raiseFrom]
          split
          · rfl
          · split
            · rfl
            · exact (ih _ _).trans (contents_relink _ _ fun _ => rfl)

@[simp]
theorem contents_setLink (trie : Trie) (link : TrieLink) (target : NodeId) :
    (trie.setLink link target).contents = trie.contents := by
  cases link with
  | root => rfl
  | inner owner => exact contents_relink _ _ fun _ => rfl
  | next before => exact contents_relink _ _ fun _ => rfl

/-! ## What an insertion stores -/

/-- The new entry joins those that are stored. -/
def deposit (entry : EntryRef) (stored : Match × List EntryRef) : Match × List EntryRef :=
  (stored.1, insertByPriority stored.2 entry)

/-- A branch has a node for each of its matches. -/
theorem contents_hang (trie : Trie) (link : TrieLink) (owner : Option NodeId)
    (stems : List Match) (entry : EntryRef) :
    ∃ branch, branch.length = stems.length ∧
      (trie.hang link owner stems entry).contents = trie.contents ++ branch := by
  refine ⟨(branchNodes entry trie.nodes.size owner stems).map TrieNode.content, ?_, ?_⟩
  · rw [List.length_map, length_branchNodes]
  · rw [hang, contents_setLink, raise, contents_raiseFrom]
    simp [contents]

theorem contents_store (trie : Trie) (id : NodeId) (entry : EntryRef) :
    (trie.store id entry).contents = trie.contents.modify id.index (deposit entry) :=
  (contents_raiseFrom _ _ _ _).trans (contents_modifyNode trie id fun _ => rfl)

/-- An adopter comes behind the nodes that are there, without entries. -/
theorem contents_adopt (trie : Trie) (link : TrieLink) (id : NodeId) (node : TrieNode)
    (stem : Match) :
    (trie.adopt link id node stem).2.contents = trie.contents ++ [(stem, [])] := by
  rw [adopt, contents_setLink, contents_relink]
  · simp [contents, TrieNode.content]
  · exact fun _ => rfl

/-- What is stored stays, the entry may join it at one position, and at most `most` are added. -/
structure Deposits (entry : EntryRef) (most : Nat) (before after : List (Match × List EntryRef)) :
    Prop where
  length_le : after.length ≤ before.length + most
  kept : ∃ target, before.modify target (deposit entry) <+: after

namespace Deposits

variable {before after : List (Match × List EntryRef)} {most more : Nat}

theorem mono (deposits : Deposits entry most before after) (le : most ≤ more) :
    Deposits entry more before after where
  length_le := Nat.le_trans deposits.length_le (Nat.add_le_add_left le _)
  kept := deposits.kept

theorem append {news : List (Match × List EntryRef)} (few : news.length ≤ most) :
    Deposits entry most before (before ++ news) where
  length_le := by
    rw [List.length_append]
    exact Nat.add_le_add_left few _
  kept := by
    refine ⟨before.length, ?_⟩
    rw [List.modify_eq_self (Nat.le_refl _)]
    exact List.prefix_append _ _

theorem modify (target : Nat) :
    Deposits entry most before (before.modify target (deposit entry)) where
  length_le := by simp
  kept := ⟨target, List.prefix_refl _⟩

/-- What is behind the first contents counts as added. -/
theorem of_append {first : Match × List EntryRef}
    (deposits : Deposits entry most (before ++ [first]) after) :
    Deposits entry (most + 1) before after where
  length_le := by
    have bound := deposits.length_le
    rw [List.length_append, List.length_singleton] at bound
    omega
  kept := by
    obtain ⟨target, leads⟩ := deposits.kept
    have taken := List.take_modify (deposit entry) target before.length (before ++ [first])
    rw [List.take_left' rfl] at taken
    exact ⟨target, taken ▸ (List.take_prefix _ _).trans leads⟩

end Deposits

/-! ## Steps of a descent -/

/-- What a step of a descent comes to: nothing, a trie with the entry, or another step. -/
inductive Descent where
  | stuck
  | done (grown : Trie)
  | onward (link : TrieLink) (owner : Option NodeId) (stems : List Match) (trie : Trie)

/-- One step of a descent. -/
def descend (trie : Trie) (entry : EntryRef) (link : TrieLink) (owner : Option NodeId) :
    (stems : List Match) → Descent
  | [] => .stuck
  | stem :: rest =>
      match trie.follow link with
      | none => .done (trie.hang link owner (stem :: rest) entry)
      | some id =>
          match trie.node? id with
          | none => .stuck
          | some node =>
              match node.stem.fit stem with
              | .apart => .onward (.next id) owner (stem :: rest) trie
              | .inside => .onward (.inner id) (some id) (stem :: rest) trie
              | .equal =>
                  if rest.isEmpty then
                    .done (trie.store id entry)
                  else
                    .onward (.inner id) (some id) rest trie
              | .around =>
                  let (adopter, grown) := trie.adopt link id node stem
                  if rest.isEmpty then
                    .done (grown.store adopter entry)
                  else
                    .onward (.inner adopter) (some adopter) rest grown
              | .fork shared =>
                  let (adopter, grown) := trie.adopt link id node shared
                  .done (grown.hang (.next id) (some adopter) (stem :: rest) entry)

/-- A descent takes steps as long as it has fuel. -/
theorem place_succ (entry : EntryRef) (fuel : Nat) (link : TrieLink) (owner : Option NodeId)
    (stems : List Match) (trie : Trie) :
    place entry (fuel + 1) link owner stems trie =
      match trie.descend entry link owner stems with
      | .stuck => none
      | .done grown => some grown
      | .onward link owner stems trie => place entry fuel link owner stems trie := by
  cases stems with
  | nil => rfl
  | cons stem rest =>
      simp only [place, descend]
      cases trie.follow link with
      | none => rfl
      | some id =>
          cases read : trie.node? id with
          | none => simp only [read]
          | some node =>
              simp only [read]
              cases node.stem.fit stem with
              | apart => rfl
              | inside => rfl
              | equal => cases rest <;> rfl
              | around => cases rest <;> rfl
              | fork shared => rfl

/-- What a step adds, and what the steps behind it may add, is one for each match, and one. -/
theorem deposits_descend (trie : Trie) (entry : EntryRef) (link : TrieLink)
    (owner : Option NodeId) (stems : List Match) :
    match trie.descend entry link owner stems with
    | .stuck => True
    | .done grown => Deposits entry (stems.length + 1) trie.contents grown.contents
    | .onward _ _ left passed => ∀ after,
        Deposits entry (left.length + 1) passed.contents after →
          Deposits entry (stems.length + 1) trie.contents after := by
  cases stems with
  | nil => trivial
  | cons stem rest =>
      cases reached : trie.follow link with
      | none =>
          obtain ⟨branch, size, hung⟩ := contents_hang trie link owner (stem :: rest) entry
          simp only [descend, reached, hung]
          exact .append (by omega)
      | some id =>
          cases read : trie.node? id with
          | none => simp only [descend, reached, read]
          | some node =>
              cases fit : node.stem.fit stem with
              | apart =>
                  simp only [descend, reached, read, fit]
                  exact fun _ deposits => deposits
              | inside =>
                  simp only [descend, reached, read, fit]
                  exact fun _ deposits => deposits
              | equal =>
                  cases last : rest.isEmpty with
                  | true =>
                      simp only [descend, reached, read, fit, last, if_true, contents_store]
                      exact .modify _
                  | false =>
                      simp only [descend, reached, read, fit, last]
                      exact fun _ deposits => deposits.mono (by simp)
              | around =>
                  have adopted := contents_adopt trie link id node stem
                  cases last : rest.isEmpty with
                  | true =>
                      simp only [descend, reached, read, fit, last, if_true, contents_store,
                        adopted]
                      exact (Deposits.modify _).of_append
                  | false =>
                      simp only [descend, reached, read, fit, last]
                      intro after deposits
                      rw [adopted] at deposits
                      exact deposits.of_append
              | fork shared =>
                  obtain ⟨branch, size, hung⟩ := contents_hang
                    (trie.adopt link id node shared).2 (.next id)
                    (some (trie.adopt link id node shared).1) (stem :: rest) entry
                  simp only [descend, reached, read, fit, hung, contents_adopt]
                  exact (Deposits.append (Nat.le_of_eq size)).of_append

/-- A descent adds at most a node for each match, and one. -/
theorem deposits_place {fuel : Nat}
    (placed : place entry fuel link owner stems trie = some grown) :
    Deposits entry (stems.length + 1) trie.contents grown.contents := by
  induction fuel generalizing link owner stems trie with
  | zero => simp [place] at placed
  | succ fuel ih =>
      have step := deposits_descend trie entry link owner stems
      rw [place_succ] at placed
      cases stepped : trie.descend entry link owner stems with
      | stuck => simp [stepped] at placed
      | done final =>
          simp only [stepped, Option.some.injEq] at placed step
          exact placed ▸ step
      | onward link owner left passed =>
          simp only [stepped] at placed step
          exact step _ (ih placed)

/-! ## Loops that end -/

/-- A descent that has a result has it with any more fuel. -/
theorem place_of_le {fuel more : Nat} (enough : fuel ≤ more)
    (placed : place entry fuel link owner stems trie = some grown) :
    place entry more link owner stems trie = some grown := by
  induction fuel generalizing more link owner stems trie with
  | zero => simp [place] at placed
  | succ fuel ih =>
      obtain ⟨more, rfl⟩ := Nat.exists_eq_succ_of_ne_zero (Nat.ne_zero_of_lt enough)
      rw [place_succ] at placed ⊢
      cases stepped : trie.descend entry link owner stems with
      | stuck => simp [stepped] at placed
      | done final => simpa only [stepped] using placed
      | onward link owner left passed =>
          simp only [stepped] at placed ⊢
          exact ih (Nat.le_of_succ_le_succ enough) placed

/-- The number of nodes whose cached priority is to be raised if one below it is. -/
def unraised (trie : Trie) (priority : UInt32) : Nat :=
  trie.nodes.toList.countP fun node => !node.highest.any (priority ≤ ·)

theorem unraised_le (trie : Trie) (priority : UInt32) :
    trie.unraised priority ≤ trie.nodes.size :=
  List.countP_le_length

/-- Every step but the last leaves a node less to raise. -/
theorem unraised_modifyNode {id : NodeId} {node : TrieNode} {priority : UInt32}
    (read : trie.node? id = some node) (unreached : ¬ node.highest.any (priority ≤ ·)) :
    (trie.modifyNode id fun node => { node with highest := some priority }).unraised priority <
      trie.unraised priority := by
  obtain ⟨below, here⟩ := Array.getElem?_eq_some_iff.mp read
  obtain ⟨front, found, back, whole, length, changed⟩ := List.exists_of_modify
    (fun node : TrieNode => { node with highest := some priority })
    (show id.index < trie.nodes.toList.length from below)
  obtain rfl : found = node := by
    rw [← here, ← Array.getElem_toList]
    simp [whole, ← length]
  have counted : (!found.highest.any (priority ≤ ·)) = true := by simpa using unreached
  rw [unraised, unraised, modifyNode, Array.toList_modify, changed, whole]
  simp [counted]

/-- Any fuel that the nodes to raise do not use up raises the same. -/
theorem raiseFrom_eq {priority : UInt32} {fuel other : Nat} {cursor : Option NodeId}
    (enough : trie.unraised priority < fuel) (otherEnough : trie.unraised priority < other) :
    raiseFrom priority fuel cursor trie = raiseFrom priority other cursor trie := by
  induction fuel generalizing other cursor trie with
  | zero => omega
  | succ fuel ih =>
      obtain ⟨other, rfl⟩ := Nat.exists_eq_succ_of_ne_zero (Nat.ne_zero_of_lt otherEnough)
      cases cursor with
      | none => rfl
      | some id =>
          simp only [raiseFrom]
          split
          · rfl
          · rename_i node read
            split
            · rfl
            · rename_i unreached
              have fewer := unraised_modifyNode read unreached
              exact ih (by omega) (by omega)

/-! ## Insertions -/

/-- An insertion stores the entry at the root, or where its descent ends. -/
theorem deposits_insert? (inserted : trie.insert? entry = some grown) :
    Deposits entry (entry.rule.matchSet.size + 1) trie.contents grown.contents := by
  unfold insert? at inserted
  split at inserted
  · obtain rfl := Option.some.inj inserted
    have same : Deposits entry (entry.rule.matchSet.size + 1) trie.contents
        (trie.contents ++ []) := .append (Nat.zero_le _)
    rwa [List.append_nil] at same
  · obtain ⟨final, placed, rfl⟩ := Option.map_eq_some_iff.mp inserted
    show Deposits entry _ trie.contents final.contents
    exact deposits_place placed

/-- The descent of an insertion does not use up its fuel. -/
theorem insert?_of_le {fuel : Nat} (inserted : trie.insert? entry = some grown)
    (proper : entry.rule.matchSet.toList ≠ [])
    (enough : trie.nodes.size + entry.rule.matchSet.size < fuel) :
    (place entry fuel .root none entry.rule.matchSet.toList trie).map
      (fun placed => { placed with size := placed.size + 1 }) = some grown := by
  unfold insert? at inserted
  split at inserted
  · contradiction
  · obtain ⟨final, placed, rfl⟩ := Option.map_eq_some_iff.mp inserted
    rw [place_of_le enough placed, Option.map_some]

/-- Each node is still there, and one at most has got the entry. -/
theorem Deposits.node? {most : Nat} (deposits : Deposits entry most trie.contents grown.contents) :
    ∃ target : Nat, ∀ id node, trie.node? id = some node →
      ∃ after, grown.node? id = some after ∧ after.stem = node.stem ∧
        after.entries = if id.index = target then insertByPriority node.entries entry
          else node.entries := by
  obtain ⟨target, news, whole⟩ := deposits.kept
  refine ⟨target, fun id node read => ?_⟩
  have inside : id.index < (trie.contents.modify target (deposit entry)).length := by
    rw [List.length_modify, length_contents]
    exact (Array.getElem?_eq_some_iff.mp read).1
  have stored := getElem?_contents grown id.index
  have before : trie.contents[id.index]? = some node.content := by
    rw [getElem?_contents, show trie.nodes[id.index]? = some node from read, Option.map_some]
  rw [← whole, List.getElem?_append_left inside, List.getElem?_modify, before] at stored
  obtain ⟨after, found, same⟩ := Option.map_eq_some_iff.mp stored.symm
  refine ⟨after, found, ?_⟩
  by_cases here : id.index = target
  · simp only [if_pos here.symm] at same
    rw [if_pos here]
    exact Prod.mk.inj same
  · simp only [if_neg (Ne.symm here)] at same
    rw [if_neg here]
    exact Prod.mk.inj same

/-- An insertion that is planned succeeds, and leaves no more nodes than can be numbered. -/
theorem WellFormed.insert_fits {chain : Chain} (formed : trie.WellFormed chain)
    {checkOverlap : Bool} (planned : trie.planAdd entry checkOverlap = .ok (.insert entry)) :
    ∃ grown, trie.insert? entry = some grown ∧ trie.apply (.insert entry) = grown ∧
      grown.nodes.size ≤ trie.nodes.size + entry.rule.matchSet.size + 1 ∧
      grown.nodes.size ≤ maxNodes := by
  rcases formed.planAdd_cases planned with ⟨old, -, -, replaced⟩ | ⟨fresh, room, -⟩
  · cases replaced
  · obtain ⟨grown, inserted, -, -⟩ := formed.insert fresh room
    have bound := (deposits_insert? inserted).length_le
    rw [length_contents, length_contents] at bound
    have applied : trie.apply (.insert entry) = grown := by
      rw [Trie.apply, Trie.insert, inserted, Option.getD_some]
    exact ⟨grown, inserted, applied, bound, Nat.le_trans bound room⟩

theorem size_nodes_replace (trie : Trie) (old new : EntryRef) :
    (trie.replace old new).nodes.size = trie.nodes.size := by
  unfold replace
  split
  · rfl
  · rfl
  · simp [modifyNode]

/-- No trie that comes about has more nodes than can be numbered. -/
theorem Reaches.nodes_le (reached : trie.Reaches installed) : trie.nodes.size ≤ maxNodes := by
  induction reached with
  | empty => exact Nat.zero_le _
  | step reached planned ih =>
      obtain ⟨chain, formed, -⟩ := reached.formed
      cases planned with
      | clear => exact Nat.zero_le _
      | add planned =>
          rcases formed.planAdd_cases planned with ⟨old, -, -, rfl⟩ | ⟨-, -, rfl⟩
          · rwa [apply, size_nodes_replace]
          · obtain ⟨grown, -, applied, -, fits⟩ := formed.insert_fits planned
            rwa [applied]

theorem index_ofIndex_of_le {size position : Nat} (fits : size ≤ maxNodes)
    (below : position < size) : (NodeId.ofIndex position).index = position := by
  rw [maxNodes] at fits
  exact NodeId.index_ofIndex (by rw [NodeId.capacity]; omega)

/--
The nodes of a trie that comes about can be numbered, and raising a priority comes to an end.
An insertion that is planned comes to an end too.  It adds no more nodes than the entry has
matches, and one, and these can be numbered.  Every node keeps its number, its stem and its
entries, save that one may get the entry.
-/
theorem Reaches.room (reached : trie.Reaches installed) :
    trie.nodes.size ≤ 2 ^ 32 - 1 ∧
      (∀ position < trie.nodes.size, (NodeId.ofIndex position).index = position) ∧
      (∀ (raised : Trie) (cursor : Option NodeId) (priority : UInt32) (fuel : Nat),
        raised.nodes.size < fuel →
          raiseFrom priority fuel cursor raised = raised.raise cursor priority) ∧
      ∀ entry checkOverlap, trie.planAdd entry checkOverlap = .ok (.insert entry) →
        ∃ grown, trie.insert? entry = some grown ∧ trie.apply (.insert entry) = grown ∧
          (entry.rule.matchSet.toList ≠ [] →
            ∀ fuel, trie.nodes.size + entry.rule.matchSet.size < fuel →
              (place entry fuel .root none entry.rule.matchSet.toList trie).map
                (fun placed => { placed with size := placed.size + 1 }) = some grown) ∧
          grown.nodes.size ≤ trie.nodes.size + entry.rule.matchSet.size + 1 ∧
          (∃ target : Nat, ∀ id node, trie.node? id = some node →
            ∃ after, grown.node? id = some after ∧ after.stem = node.stem ∧
              after.entries =
                if id.index = target then insertByPriority node.entries entry
                else node.entries) ∧
          grown.nodes.size ≤ 2 ^ 32 - 1 ∧
          ∀ position < grown.nodes.size, (NodeId.ofIndex position).index = position := by
  obtain ⟨chain, formed, -⟩ := reached.formed
  have bounded := reached.nodes_le
  refine ⟨bounded, fun _ => index_ofIndex_of_le bounded, ?_, ?_⟩
  · intro raised cursor priority fuel enough
    have few := raised.unraised_le priority
    exact raiseFrom_eq (by omega) (by omega)
  · intro entry checkOverlap planned
    obtain ⟨grown, inserted, applied, bound, fits⟩ := formed.insert_fits planned
    exact ⟨grown, inserted, applied, fun proper _ => insert?_of_le inserted proper, bound,
      (deposits_insert? inserted).node?, fits, fun _ => index_ofIndex_of_le fits⟩

/-- A backup for a part that forks off adds two nodes for its one match, and no more. -/
theorem forked_room :
    forked.Reaches [office, campus] ∧
      forked.planAdd officeBackup true = .ok (.insert officeBackup) ∧
      ∃ grown, forked.insert? officeBackup = some grown ∧
        grown.nodes.size = forked.nodes.size + officeBackup.rule.matchSet.size + 1 ∧
        (NodeId.ofIndex 4).index = 4 := by
  have planned : forked.planAdd officeBackup true = .ok (.insert officeBackup) := by decide
  obtain ⟨grown, inserted, -, -, -, -, -, numbered⟩ :=
    reaches_forked.room.2.2.2 officeBackup true planned
  have five : (forked.insert? officeBackup).map (·.nodes.size) = some 5 := rfl
  rw [inserted, Option.map_some, Option.some.injEq] at five
  exact ⟨reaches_forked, planned, grown, inserted, five, numbered 4 (by omega)⟩

end Trie

end PacketClassifier
