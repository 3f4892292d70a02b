import Mathlib.Algebra.Group.Nat.Defs
import PacketClassifier.Proofs.Text.Numerals
import PacketClassifier.Proofs.Text.Separation
import PacketClassifier.Text.Address

/-!
# Addresses that are read back

An IPv4 address is found again in its bytes, and an IPv6 address in its groups.  Where a run of
zero groups is left out, the groups in front of the first empty piece and behind the last one
tell how long the run was, because there are eight groups in all.
-/

namespace PacketClassifier.Text

variable {left right : Word} {groups : List Nat}

/-- The marks of addresses beside hexadecimal digits. -/
def addressCharacters : List Char :=
  '.' :: ':' :: hexDigits

/-! ## IPv4 addresses -/

theorem byteAt_eq (word : Word) (shift : Nat) :
    byteAt word shift = word.toNat / 2 ^ shift % 256 := by
  rw [byteAt, BitVec.toNat_ushiftRight, Nat.shiftRight_eq_div_pow]

theorem ipv4_subset (address : Word) : (ipv4 address).toList ⊆ addressCharacters := by
  refine joined_subset (by decide) fun text member => ?_
  obtain ⟨byte, -, rfl⟩ := List.mem_map.mp member
  exact List.subset_cons_of_subset _ (List.subset_cons_of_subset _ (decimal_subset byte))

theorem dot_mem_ipv4 (address : Word) : '.' ∈ (ipv4 address).toList := by
  simp [ipv4, joined]

/-- An IPv4 address is determined by how it is written. -/
theorem low_eq_of_ipv4_eq (same : ipv4 left = ipv4 right) :
    left.toNat % 2 ^ 32 = right.toNat % 2 ^ 32 := by
  have clear (bytes : List Nat) : ∀ text ∈ bytes.map decimal, '.' ∉ text.toList := by
    intro text member
    obtain ⟨byte, -, rfl⟩ := List.mem_map.mp member
    exact List.notMem_of_subset (decimal_subset byte) (by decide)
  have texts := eq_of_joined_eq (by rfl) same (by simp) (by simp) (clear _) (clear _)
  have bytes := (List.map_inj_right fun _ _ => decimal_inj.mp).mp texts
  simp only [List.map_cons, List.map_nil, List.cons.injEq, byteAt_eq, and_true] at bytes
  omega

/-! ## Groups -/

theorem groupAt_eq (word : Word) (shift : Nat) :
    groupAt word shift = word.toNat / 2 ^ shift % 65536 := by
  rw [groupAt, BitVec.toNat_ushiftRight, Nat.shiftRight_eq_div_pow]

/-- A word is determined by its six highest groups and its 32 lowest bits. -/
theorem eq_of_take_ipv6Groups_eq
    (high : (ipv6Groups left).take 6 = (ipv6Groups right).take 6)
    (low : left.toNat % 2 ^ 32 = right.toNat % 2 ^ 32) : left = right := by
  simp only [ipv6Groups, List.map_cons, List.take_succ_cons, List.take_zero,
    List.cons.injEq, groupAt_eq, and_true] at high
  apply BitVec.eq_of_toNat_eq
  have leftWord := left.isLt
  have rightWord := right.isLt
  omega

theorem ipv6Groups_injective (same : ipv6Groups left = ipv6Groups right) : left = right := by
  refine eq_of_take_ipv6Groups_eq (congrArg (List.take 6) same) ?_
  simp only [ipv6Groups, List.map_cons, List.map_nil, List.cons.injEq, groupAt_eq,
    and_true] at same
  omega

def groupText (group : Nat) : String :=
  String.ofList (Nat.toDigits 16 group)

theorem groupText_injective : Function.Injective groupText :=
  fun _ _ same => eq_of_toDigits_eq (by decide) (by decide) (String.ofList_inj.mp same)

theorem groupText_ne_empty (group : Nat) : groupText group ≠ "" := by
  simp [groupText, Nat.toDigits_ne_nil]

theorem groupText_subset (group : Nat) : (groupText group).toList ⊆ hexDigits := by
  rw [groupText, String.toList_ofList]
  exact toDigits_subset (by decide) (by decide) group

/-! ## What stands between colons -/

/-- The texts of groups between colons; without a group it is one empty text. -/
def filled (groups : List Nat) : List String :=
  if groups = [] then [""] else groups.map groupText

theorem colonGroups_eq_joined (groups : List Nat) :
    colonGroups groups = joined ":" (filled groups) := by
  cases groups with
  | nil => rfl
  | cons first rest => rfl

theorem filled_ne_nil (groups : List Nat) : filled groups ≠ [] := by
  cases groups <;> simp [filled]

theorem filled_reverse (groups : List Nat) : (filled groups).reverse = filled groups.reverse := by
  by_cases none : groups = [] <;> simp [filled, none]

theorem takeWhile_filled (groups : List Nat) (rest : List String) :
    (filled groups ++ "" :: rest).takeWhile (· ≠ "") = groups.map groupText := by
  cases groups with
  | nil => simp [filled]
  | cons first others =>
      rw [filled, if_neg (List.cons_ne_nil _ _), List.takeWhile_append_of_pos]
      · simp
      · intro text member
        obtain ⟨group, -, rfl⟩ := List.mem_map.mp member
        simpa using groupText_ne_empty group

/-- What stands between the colons of groups of which the longest run of zeros is left out. -/
def pieces (groups : List Nat) : List String :=
  let start := longestZeroRun groups
  let length := zeroRun groups start
  if length > 1 then
    filled (groups.take start) ++ "" :: filled (groups.drop (start + length))
  else
    groups.map groupText

/-- A run of zero groups can be put back where it was left out. -/
theorem eq_append_zeroRun_append (groups : List Nat) (start : Nat) :
    groups = groups.take start ++ (List.replicate (zeroRun groups start) 0 ++
      groups.drop (start + zeroRun groups start)) := by
  have zeros : (groups.drop start).takeWhile (· == 0) =
      List.replicate (zeroRun groups start) 0 := by
    refine List.eq_replicate_iff.mpr ⟨rfl, fun group member => ?_⟩
    simpa using List.all_eq_true.mp List.all_takeWhile group member
  have parted := List.takeWhile_append_dropWhile (p := (· == 0)) (l := groups.drop start)
  have behind : groups.drop (start + zeroRun groups start) =
      (groups.drop start).dropWhile (· == 0) := by
    rw [← List.drop_drop]
    exact (congrArg (List.drop _) parted.symm).trans List.drop_left
  rw [← zeros, behind, parted, List.take_append_drop]

/-- Groups with a run of zeros between are determined by what is around the run. -/
theorem eq_of_filled_eq {front front' back back' : List Nat} {zeros zeros' : Nat}
    (same : filled front ++ "" :: filled back = filled front' ++ "" :: filled back')
    (lengths : (front ++ (List.replicate zeros 0 ++ back)).length =
      (front' ++ (List.replicate zeros' 0 ++ back')).length) :
    front ++ (List.replicate zeros 0 ++ back) =
      front' ++ (List.replicate zeros' 0 ++ back') := by
  have reversed := congrArg List.reverse same
  simp only [List.reverse_append, List.reverse_cons, List.append_assoc,
    List.singleton_append, filled_reverse] at reversed
  have fronts := congrArg (List.takeWhile (· ≠ "")) same
  have backs := congrArg (List.takeWhile (· ≠ "")) reversed
  rw [takeWhile_filled, takeWhile_filled] at fronts backs
  obtain rfl := List.map_injective_iff.mpr groupText_injective fronts
  obtain rfl := List.reverse_injective (List.map_injective_iff.mpr groupText_injective backs)
  simp only [List.length_append, List.length_replicate] at lengths
  rw [show zeros = zeros' by omega]

/-- As many groups are determined by what stands between their colons. -/
theorem pieces_injective {groups others : List Nat} (lengths : groups.length = others.length)
    (same : pieces groups = pieces others) : groups = others := by
  have solid (groups : List Nat) : "" ∉ groups.map groupText := by
    intro member
    obtain ⟨group, -, empty⟩ := List.mem_map.mp member
    exact groupText_ne_empty group empty
  have parted := eq_append_zeroRun_append groups (longestZeroRun groups)
  have parted' := eq_append_zeroRun_append others (longestZeroRun others)
  simp only [pieces] at same
  -- only where a run is left out is a piece empty, so both leave one out or neither does
  split at same <;> split at same
  · rw [parted, parted'] at lengths ⊢
    exact eq_of_filled_eq same lengths
  · exact absurd (same ▸ by simp) (solid others)
  · exact absurd (same ▸ by simp) (solid groups)
  · exact List.map_injective_iff.mpr groupText_injective same

theorem pieces_ne_nil (some : groups ≠ []) : pieces groups ≠ [] := by
  simp only [pieces]
  split
  · simp
  · simpa using some

theorem subset_of_mem_pieces {text : String} (member : text ∈ pieces groups) :
    text.toList ⊆ hexDigits := by
  have digits (groups : List Nat) : ∀ text ∈ groups.map groupText, text.toList ⊆ hexDigits := by
    intro text member
    obtain ⟨group, -, rfl⟩ := List.mem_map.mp member
    exact groupText_subset group
  have filledDigits (groups : List Nat) : ∀ text ∈ filled groups, text.toList ⊆ hexDigits := by
    unfold filled
    split
    · simp
    · exact digits groups
  simp only [pieces] at member
  split at member
  · rcases List.mem_append.mp member with inFront | member
    · exact filledDigits _ text inFront
    · rcases List.mem_cons.mp member with rfl | inBack
      · simp
      · exact filledDigits _ text inBack
  · exact digits _ text member

/-! ## IPv6 addresses -/

/-- An IPv6 address stands for an IPv4 address. -/
def IsMapped (address : Word) : Prop :=
  (ipv6Groups address).take 6 = [0, 0, 0, 0, 0, 65535]

theorem ipv6_of_isMapped (mapped : IsMapped left) : ipv6 left = "::ffff:" ++ ipv4 left :=
  if_pos mapped

theorem joined_filled (front back : List Nat) :
    joined ":" (filled front ++ "" :: filled back) =
      colonGroups front ++ "::" ++ colonGroups back := by
  have colons : "::" = ":" ++ ":" := by decide
  rw [joined, String.intercalate_append_of_ne_nil (filled_ne_nil _) (List.cons_ne_nil _ _),
    String.intercalate_cons_of_ne_nil (filled_ne_nil _), colonGroups_eq_joined,
    colonGroups_eq_joined, joined, joined, colons]
  simp only [String.empty_append, String.append_assoc]

theorem ipv6_of_not_isMapped (proper : ¬ IsMapped left) :
    ipv6 left = joined ":" (pieces (ipv6Groups left)) := by
  refine (if_neg proper).trans ?_
  rw [pieces]
  split
  · exact (joined_filled _ _).symm
  · rfl

theorem ipv6_subset (address : Word) : (ipv6 address).toList ⊆ addressCharacters := by
  by_cases mapped : IsMapped address
  · rw [ipv6_of_isMapped mapped, String.toList_append, List.append_subset]
    exact ⟨by decide, ipv4_subset address⟩
  · rw [ipv6_of_not_isMapped mapped]
    exact joined_subset (by decide) fun text member =>
      List.subset_cons_of_subset _ (List.subset_cons_of_subset _ (subset_of_mem_pieces member))

theorem dot_mem_ipv6_iff (address : Word) :
    '.' ∈ (ipv6 address).toList ↔ IsMapped address := by
  by_cases mapped : IsMapped address
  · simp [ipv6_of_isMapped mapped, dot_mem_ipv4, mapped]
  · have digits : (joined ":" (pieces (ipv6Groups address))).toList ⊆ ':' :: hexDigits :=
      joined_subset (by decide) fun text member =>
        List.subset_cons_of_subset _ (subset_of_mem_pieces member)
    rw [ipv6_of_not_isMapped mapped]
    exact iff_of_false (List.notMem_of_subset digits (by decide)) mapped

/-- An IPv6 address is determined by how it is written. -/
theorem ipv6_injective : Function.Injective ipv6 := by
  intro left right same
  have alike : IsMapped left ↔ IsMapped right := by
    rw [← dot_mem_ipv6_iff, same, dot_mem_ipv6_iff]
  by_cases mapped : IsMapped left
  · rw [ipv6_of_isMapped mapped, ipv6_of_isMapped (alike.mp mapped),
      String.append_right_inj] at same
    exact eq_of_take_ipv6Groups_eq (mapped.trans (alike.mp mapped).symm)
      (low_eq_of_ipv4_eq same)
  · have clear (address : Word) : ∀ text ∈ pieces (ipv6Groups address), ':' ∉ text.toList :=
      fun text member => List.notMem_of_subset (subset_of_mem_pieces member) (by decide)
    have some (address : Word) : pieces (ipv6Groups address) ≠ [] :=
      pieces_ne_nil (List.cons_ne_nil _ _)
    rw [ipv6_of_not_isMapped mapped, ipv6_of_not_isMapped (mapped ∘ alike.mpr)] at same
    have groups := eq_of_joined_eq (by rfl) same (some left) (some right) (clear left)
      (clear right)
    exact ipv6Groups_injective (pieces_injective (by simp [ipv6Groups]) groups)

end PacketClassifier.Text
