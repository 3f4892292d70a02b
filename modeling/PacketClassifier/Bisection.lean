/-!
# Bisection

Bisection finds where the leading run of positions with a property ends, among
positions of which the ones with the property come first.  It probes the middle
of what is left until a single position is left, and that position last.

Positions in order can be searched in the same way for one of a given rank.
-/

namespace PacketClassifier.Bisection

/--
The position that is left of the `size` positions from `base` on: the upper half
is kept when its first position has the property, otherwise the lower half.
-/
def narrow (holds : Nat → Bool) (base size : Nat) : Nat :=
  if size ≤ 1 then
    base
  else
    let half := size / 2
    narrow holds (if holds (base + half) then base + half else base)
      (size - half)
termination_by size

/-- Where the leading run of positions with the property ends. -/
def runEnd (holds : Nat → Bool) (size : Nat) : Nat :=
  if size = 0 then
    0
  else
    let last := narrow holds 0 size
    if holds last then last + 1 else last

/--
The position whose rank is the one looked for or, as an error, where it would have to
come.  `rank` says how the rank of a position compares with the one looked for.
-/
def search (rank : Nat → Ordering) (size : Nat) : Except Nat Nat :=
  if size = 0 then
    .error 0
  else
    let last := narrow (fun position => rank position != .gt) 0 size
    match rank last with
    | .lt => .error (last + 1)
    | .eq => .ok last
    | .gt => .error last

end PacketClassifier.Bisection
