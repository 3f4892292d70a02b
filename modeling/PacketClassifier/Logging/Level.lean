/-!
# Log levels

A level says how much to log.  Levels are ordered: at a level everything is
logged that lower levels log, and at the lowest nothing.
-/

namespace PacketClassifier.Logging

/-- How much to log, from nothing to everything. -/
inductive Level where
  | off
  | error
  | warn
  | info
  | debug
  | trace
deriving DecidableEq, Inhabited

namespace Level

/-- Every level, in increasing order. -/
def all : List Level :=
  [.off, .error, .warn, .info, .debug, .trace]

/-- The position of a level in the order. -/
def rank (level : Level) : Nat :=
  level.ctorIdx

instance : Ord Level := ⟨fun left right => compare left.rank right.rank⟩

def text : Level → String
  | .off => "off"
  | .error => "error"
  | .warn => "warn"
  | .info => "info"
  | .debug => "debug"
  | .trace => "trace"

/-- The level of a given name, which must be spelled in lower case. -/
def ofText? (text : String) : Option Level :=
  all.find? (fun level => level.text == text)

/-- The level of a given name, without regard to the case of ASCII letters. -/
def ofAnyCase? (text : String) : Option Level :=
  ofText? (String.ofList (text.toList.map Char.toLower))

end Level

end PacketClassifier.Logging
