import PacketClassifier.Bisection
import PacketClassifier.MatchSet

/-!
# Matches listed by field

The matches of a conjunction are listed in field order, so the match on a field is found by
bisection, and where there is none, its place.  A match that is offered to a list comes to its
place there; if the field is taken it is refused, and the list stays as it is.
-/

namespace PacketClassifier

namespace Listing

/-- How the field of the match at a position compares with a field. -/
def rank (list : List Match) (field : Field) (position : Nat) : Ordering :=
  list[position]?.elim .gt (fun m => compare m.field.index field.index)

/-- The position of the match on a field or, as an error, the place for one. -/
def locate (list : List Match) (field : Field) : Except Nat Nat :=
  Bisection.search (rank list field) list.length

def get? (list : List Match) (field : Field) : Option Match :=
  match locate list field with
  | .ok position => list[position]?
  | .error _ => none

/-- Offer a match to a list: whether it is refused, and the list afterwards. -/
def offer (list : List Match) (m : Match) : Except MatchError Unit × List Match :=
  match locate list m.field with
  | .ok _ => (.error (.duplicateField m.field), list)
  | .error place =>
      (.ok (), if m.IsWildcard then list else list.insertIdx place m)

/-- The list after several offers, one after the other. -/
def offerAll (list offers : List Match) : List Match :=
  offers.foldl (fun held m => (offer held m).2) list

end Listing

namespace MatchSet

/-- The conjunction after an offer; a match that is refused leaves it as it is. -/
def offer (set : MatchSet) (m : Match) : MatchSet :=
  (set.insert m).toOption.getD set

/-- The conjunction after several offers, one after the other. -/
def offerAll (set : MatchSet) (offers : List Match) : MatchSet :=
  offers.foldl offer set

end MatchSet

end PacketClassifier
