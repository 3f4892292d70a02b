import PacketClassifier.Entry.Text
import PacketClassifier.Proofs.Text.Instructions

/-!
# Entries that are read back

Two entries that are written alike agree in priority, cookie, conjunction and instructions.
What does not show is the mask of the cookie, whether the removal is notified, the table and
the counters.
-/

namespace PacketClassifier

open Text

namespace Entry

variable {left right : Entry}

/-- A cookie that is zero is left out, and what follows starts with another letter. -/
theorem eq_of_cookieText_append_eq {cookie cookie' : UInt64} {back back' : String}
    (same : cookieText cookie ++ ("match=" ++ back) =
      cookieText cookie' ++ ("match=" ++ back')) :
    cookie = cookie' ∧ back = back' := by
  have clear (number : Nat) : ' ' ∉ (hex number).toList :=
    List.notMem_of_subset (hex_subset number) (by decide)
  have different (text text' : String) : "match=" ++ text ≠ "cookie=" ++ text' := by
    intro equal
    simpa using congrArg (·.toList.head?) equal
  unfold cookieText at same
  split at same <;> split at same <;>
    simp only [String.empty_append, String.append_assoc, String.append_right_inj] at same
  · rename_i none none'
    exact ⟨none.trans none'.symm, same⟩
  · exact absurd same (different _ _)
  · exact absurd same.symm (different _ _)
  · obtain ⟨numbers, behind⟩ := eq_of_append_append_eq (by rfl) same (clear _) (clear _)
    exact ⟨UInt64.toNat_inj.mp (hex_inj.mp numbers),
      (String.append_right_inj "match=").mp behind⟩

theorem parts_eq_of_text_eq (same : left.text = right.text) :
    left.priority = right.priority ∧ left.cookie = right.cookie ∧
      left.matchSet = right.matchSet ∧ left.instructions = right.instructions := by
  have clearNumber (number : Nat) : ' ' ∉ (decimal number).toList :=
    List.notMem_of_subset (decimal_subset number) (by decide)
  have clearMatches (set : MatchSet) : ' ' ∉ set.text.toList :=
    List.notMem_of_subset set.text_subset (by decide)
  simp only [text, String.append_assoc, String.append_right_inj] at same
  obtain ⟨priorities, behind⟩ :=
    eq_of_append_append_eq (by rfl) same (clearNumber _) (clearNumber _)
  obtain ⟨cookies, behind⟩ := eq_of_cookieText_append_eq behind
  obtain ⟨sets, instructions⟩ :=
    eq_of_append_append_eq (by rfl) behind (clearMatches _) (clearMatches _)
  exact ⟨UInt32.toNat_inj.mp (decimal_inj.mp priorities), cookies,
    MatchSet.text_injective sets, InstructionSet.text_injective instructions⟩

/--
The text of an entry tells its priority, its cookie, its conjunction and its instructions, and
nothing beyond.
-/
theorem text_eq_iff (left right : Entry) :
    left.text = right.text ↔
      left.priority = right.priority ∧ left.cookie = right.cookie ∧
        left.matchSet = right.matchSet ∧ left.instructions = right.instructions := by
  refine ⟨parts_eq_of_text_eq, ?_⟩
  rintro ⟨priority, cookie, matchSet, instructions⟩
  simp only [text, priority, cookie, matchSet, instructions]

end Entry

end PacketClassifier
