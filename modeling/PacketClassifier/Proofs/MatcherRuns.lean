import PacketClassifier.Proofs.Table

/-!
# Runs of a matcher

A request is planned on a matcher, and what was planned is applied at once.  A request that
is refused leaves the matcher as it is.  Along every run the matcher stays well-formed, and
each change does to the entries what it says.
-/

namespace PacketClassifier.Matcher

/-- A request to a matcher.  What a removal selects depends on what a ledger knows. -/
inductive Request where
  | add (entry : EntryRef) (checkOverlap : Bool)
  | remove (ledger : Ledger) (target : RemovalTarget)
  | clear

variable {matcher : Matcher} {request : Request} {change : Change}

def plan (matcher : Matcher) : Request → Except RequestError Change
  | .add entry checkOverlap => matcher.planAdd entry checkOverlap
  | .remove ledger target => matcher.planRemove ledger target
  | .clear => .ok .clear

/-- What a request leads to; one that is refused leads nowhere. -/
def after (matcher : Matcher) (request : Request) : Matcher :=
  match matcher.plan request with
  | .ok change => matcher.apply change
  | .error _ => matcher

/-- What requests lead to, one after the other. -/
def run (matcher : Matcher) (requests : List Request) : Matcher :=
  requests.foldl after matcher

/-- What is planned keeps a matcher well-formed, and does to the entries what it says. -/
theorem WellFormed.apply_plan (formed : matcher.WellFormed)
    (planned : matcher.plan request = .ok change) :
    (matcher.apply change).WellFormed ∧
      (matcher.apply change).entries.Perm (change.carryOut matcher.entries) := by
  cases request with
  | add entry checkOverlap => exact formed.apply_planAdd planned
  | clear =>
      obtain rfl := Except.ok.inj planned
      obtain ⟨emptied, none⟩ := formed.apply_clear
      exact ⟨emptied, List.Perm.of_eq none⟩
  | remove ledger target =>
      refine ⟨(formed.apply_planRemove planned).1, ?_⟩
      cases matcher with
      | trie tree => cases planned
      | list sequence => exact PriorityList.WellFormed.carryOut_perm formed change

theorem WellFormed.after (formed : matcher.WellFormed) (request : Request) :
    (matcher.after request).WellFormed := by
  unfold Matcher.after
  cases planned : matcher.plan request with
  | error cause => exact formed
  | ok change => exact (formed.apply_plan planned).1

theorem WellFormed.run (formed : matcher.WellFormed) (requests : List Request) :
    (matcher.run requests).WellFormed := by
  induction requests generalizing matcher with
  | nil => exact formed
  | cons first rest ih => exact ih (formed.after first)

end PacketClassifier.Matcher
