import PacketClassifier.Entry

/-!
# Notices of removal

The controller can ask to be told when an entry goes away.  A notice is due for
an entry that was flagged, unless the reason is one nobody reports.
-/

namespace PacketClassifier

/-- Why an entry went away. -/
inductive RemovalReason where
  /-- Part of a request that is not about removal, as when an entry is replaced. -/
  | unreported
  | idleTimeout
  | hardTimeout
  | delete
  | groupDelete
deriving DecidableEq

namespace RemovalReason

def all : List RemovalReason :=
  [.unreported, .idleTimeout, .hardTimeout, .delete, .groupDelete]

def text : RemovalReason → String
  | .unreported => "none"
  | .idleTimeout => "idle-timeout"
  | .hardTimeout => "hard-timeout"
  | .delete => "delete"
  | .groupDelete => "group-delete"

/-- The reason of a given name. -/
def ofText? (text : String) : Option RemovalReason :=
  all.find? (fun reason => reason.text == text)

end RemovalReason

/-- What the controller is told: an entry, as it was when it went, and why. -/
structure RemovalNotice where
  reason : RemovalReason
  entry : Entry
deriving DecidableEq

/-- The notice that is due when an entry goes away, if any. -/
def Entry.removalNotice? (entry : Entry) (reason : RemovalReason) :
    Option RemovalNotice :=
  if entry.notifiesRemoval ∧ reason ≠ .unreported then
    some ⟨reason, entry⟩
  else
    none

end PacketClassifier
