import PacketClassifier.Logging.Config
import PacketClassifier.Text.Alphanumeric
import PacketClassifier.Text.Blank

/-!
# Filters

A filter decides which events are logged.  It is built from a configuration,
target by target; every target must be a proper name, and the directive that
states its level must be accepted by whoever enforces the filter.
-/

namespace PacketClassifier.Logging

/-- Why a directive is refused. -/
inductive DirectiveFault where
  /-- The target is no proper name. -/
  | badTarget
  /-- Whoever enforces the filter does not accept the directive. -/
  | notAccepted
deriving DecidableEq

def DirectiveFault.text : DirectiveFault → String
  | .badTarget => "not a valid target name"
  | .notAccepted => "invalid filter directive"

/-- Why a change of logging is refused. -/
inductive ControlError where
  | invalidLevel (text : String)
  | invalidSyntax (text : String)
  | invalidDirective (directive : String) (fault : DirectiveFault)
  | alreadyInitialized
  /-- Nobody enforces the filter any more. -/
  | subscriberGone
deriving DecidableEq

def ControlError.message : ControlError → String
  | .invalidLevel text => "Invalid log level '" ++ text ++ "'"
  | .invalidSyntax text =>
      "Invalid syntax '" ++ text ++ "': it should be target=level"
  | .invalidDirective directive fault =>
      "Invalid tracing directive '" ++ directive ++ "': " ++ fault.text
  | .alreadyInitialized => "A global tracing subscriber is already installed"
  | .subscriberGone =>
      "Failed to reload tracing filter: subscriber no longer exists"

/-- A character that no target name contains. -/
def breaksTarget (character : Char) : Bool :=
  character ∈ [',', '=', '[', ']', '\x7b', '\x7d'] || Text.isBlank character

/-- A text is a proper name of a target. -/
def IsTarget (target : String) : Prop :=
  target ≠ "" ∧ target ≠ Config.defaultKey ∧
    target.toList.all (fun character => !breaksTarget character)

instance (target : String) : Decidable (IsTarget target) :=
  inferInstanceAs (Decidable (_ ∧ _ ∧ _))

/-- Refuse a text that is no proper name of a target. -/
def checkTarget (target : String) : Except ControlError Unit :=
  if IsTarget target then
    .ok ()
  else
    .error (.invalidDirective target .badTarget)

/--
The rule that subscribers accept directives by: a directive starts with a letter,
a digit, a hyphen, a colon or an underscore.
-/
def startsLikeName (directive : String) : Bool :=
  match directive.toList with
  | [] => false
  | first :: _ => first ∈ ['-', ':', '_'] || Text.isAlphanumeric first

/-- A level for everything, and levels for the targets that start with a name. -/
structure Filter where
  level : Level
  directives : List (String × Level)
deriving DecidableEq

namespace Filter

/-- The longer of two directives, the first of equally long ones. -/
def longer (left : Option (String × Level)) (right : String × Level) :
    Option (String × Level) :=
  match left with
  | some (name, level) =>
      if name.length < right.1.length then some right else some (name, level)
  | none => some right

/--
The level of a target: that of the longest directive that the target starts
with, otherwise the level for everything.
-/
def levelOf (filter : Filter) (target : String) : Level :=
  let fitting := filter.directives.filter
    (fun (name, _) => name.toList.isPrefixOf target.toList)
  match fitting.foldl longer none with
  | some (_, level) => level
  | none => filter.level

/-- An event of a target and a level is logged. -/
def Allows (filter : Filter) (target : String) (event : Level) : Prop :=
  event.rank ≤ (filter.levelOf target).rank

instance (filter : Filter) (target : String) (event : Level) :
    Decidable (filter.Allows target event) :=
  inferInstanceAs (Decidable (_ ≤ _))

/-- Check one target of a configuration, and state its level. -/
def directive (accepts : String → Bool) (target : String) (level : Level) :
    Except ControlError (String × Level) := do
  checkTarget target
  let text := Config.settingText target level
  if accepts text then
    return (target, level)
  else
    throw (.invalidDirective text .notAccepted)

/-- The filter that enforces a configuration; the first bad target is reported. -/
def ofConfig (accepts : String → Bool) (config : Config) :
    Except ControlError Filter := do
  let directives ← config.targets.toList.mapM
    (fun (target, level) => directive accepts target level)
  return { level := config.level, directives }

end Filter

end PacketClassifier.Logging
