import PacketClassifier.Logging.Settings

/-!
# Control of logging

Whoever controls logging changes a configuration while a subscriber enforces
the filter built from it.  A change is made on a copy of the configuration, and
takes the place of the configuration only once its filter is in force.  A change
that changes nothing succeeds even when the subscriber is gone.
-/

namespace PacketClassifier.Logging

/-- A configuration, and the filter last put in force. -/
structure Control where
  config : Config
  filter : Filter
  /-- The subscriber that enforces the filter still exists. -/
  live : Bool
deriving DecidableEq

namespace Control

/-- Control of logging by a configuration, with a subscriber that enforces it. -/
def new (accepts : String → Bool) (config : Config) :
    Except ControlError Control := do
  let filter ← Filter.ofConfig accepts config
  return { config, filter, live := true }

/--
Control of logging for the whole process, which takes one subscriber only.
-/
def init (accepts : String → Bool) (taken : Bool) (config : Config) :
    Except ControlError Control := do
  let control ← new accepts config
  if taken then
    throw .alreadyInitialized
  else
    return control

/-- The subscriber goes away. -/
def drop (control : Control) : Control :=
  { control with live := false }

/-- Put a configuration in force, if it is another one. -/
def enforce (accepts : String → Bool) (control : Control) (candidate : Config) :
    Except ControlError Unit × Control :=
  if candidate = control.config then
    (.ok (), control)
  else
    match Filter.ofConfig accepts candidate with
    | .error cause => (.error cause, control)
    | .ok filter =>
        if control.live then
          (.ok (), { control with config := candidate, filter })
        else
          (.error .subscriberGone, control)

/-- Set the level of the targets that have none of their own. -/
def setDefault (accepts : String → Bool) (control : Control) (level : Level) :
    Except ControlError Unit × Control :=
  control.enforce accepts { control.config with level }

/-- Give a target a level. -/
def setTarget (accepts : String → Bool) (control : Control) (target : String)
    (level : Level) : Except ControlError Unit × Control :=
  match checkTarget target with
  | .error cause => (.error cause, control)
  | .ok () =>
      control.enforce accepts
        { control.config with
          targets := control.config.targets.insert target level }

/-- Take the level of a target away.  The result tells whether it had one. -/
def clearTarget (accepts : String → Bool) (control : Control) (target : String) :
    Except ControlError Bool × Control :=
  let (result, control') := control.enforce accepts
    { control.config with targets := control.config.targets.erase target }
  (result.map (fun _ => (control.config.targets.get? target).isSome), control')

/-- Change a configuration by settings, all at once. -/
def setup (accepts : String → Bool) (control : Control) (text : String) :
    Except ControlError Unit × Control :=
  match readSettings text with
  | .error cause => (.error cause, control)
  | .ok settings =>
      control.enforce accepts (control.config.setAll settings.toList)

/-- Whether an event is logged; nobody can tell when the subscriber is gone. -/
def probe? (control : Control) (target : String) (event : Level) : Option Bool :=
  if control.live then some (control.filter.Allows target event) else none

end Control

end PacketClassifier.Logging
