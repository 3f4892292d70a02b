import Mathlib.Data.List.Forall2

/-!
# Computations that may fail

What succeeded has succeeded at every step; of a list, at every item.
-/

namespace PacketClassifier

/-- A computation that succeeds has a first step that does, and goes on with its result. -/
theorem exists_of_bind_eq_ok {ε α β : Type} {first : Except ε α}
    {further : α → Except ε β} {result : β} (succeeded : first >>= further = .ok result) :
    ∃ value, first = .ok value ∧ further value = .ok result := by
  cases first with
  | error cause => cases succeeded
  | ok value => exact ⟨value, rfl, succeeded⟩

theorem eq_ok_of_mapError {ε ε' α : Type} {outcome : Except ε α} {translate : ε → ε'}
    {result : α} (succeeded : outcome.mapError translate = .ok result) :
    outcome = .ok result := by
  cases outcome with
  | error cause => cases succeeded
  | ok value => exact congrArg Except.ok (Except.ok.inj succeeded)

theorem eq_ok_of_forM {ε α : Type} {list : List α} {check : α → Except ε Unit}
    (checked : list.forM check = .ok ()) {item : α} (member : item ∈ list) :
    check item = .ok () := by
  induction list with
  | nil => exact absurd member List.not_mem_nil
  | cons first rest ih =>
      obtain ⟨_, passed, others⟩ := exists_of_bind_eq_ok checked
      rcases List.mem_cons.mp member with rfl | later
      · exact passed
      · exact ih others later

/-- Work on a list succeeds with the results of the work on its items. -/
theorem mapM_eq_ok_iff {ε α β : Type} {work : α → Except ε β} {items : List α}
    {results : List β} :
    items.mapM work = .ok results ↔
      List.Forall₂ (fun item result => work item = .ok result) items results := by
  induction items generalizing results with
  | nil =>
      rw [List.mapM_nil, List.forall₂_nil_left_iff, eq_comm]
      exact ⟨Except.ok.inj, congrArg Except.ok⟩
  | cons first rest ih =>
      rw [List.mapM_cons]
      constructor
      · intro succeeded
        obtain ⟨head, done, succeeded⟩ := exists_of_bind_eq_ok succeeded
        obtain ⟨tail, others, succeeded⟩ := exists_of_bind_eq_ok succeeded
        obtain rfl := Except.ok.inj succeeded
        exact .cons done (ih.mp others)
      · rintro (_ | ⟨done, others⟩)
        rw [done, ih.mpr others]
        rfl

end PacketClassifier
