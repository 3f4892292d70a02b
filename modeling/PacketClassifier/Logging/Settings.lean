import PacketClassifier.Logging.Filter

/-!
# Reading settings

Settings are items between commas, each a target, an equals sign and a level.
Blanks around targets and levels do not count.  A target that is named twice
keeps its first place and its last level.
-/

namespace PacketClassifier.Logging

/-- Characters between separators. -/
def splitAll (separator : Char) : List Char → List (List Char)
  | [] => [[]]
  | first :: rest =>
      if first = separator then
        [] :: splitAll separator rest
      else
        match splitAll separator rest with
        | [] => [[first]]
        | item :: items => (first :: item) :: items

/-- The characters before and after the first separator, if there is one. -/
def splitFirst? (separator : Char) : List Char → Option (List Char × List Char)
  | [] => none
  | first :: rest =>
      if first = separator then
        some ([], rest)
      else
        (splitFirst? separator rest).map
          (fun (before, after) => (first :: before, after))

/--
Read one setting.  The level is looked at before the target, which may also be
the key of the default level.
-/
def readSetting (item : List Char) : Except ControlError (String × Level) := do
  let item := Text.trim item
  match splitFirst? '=' item with
  | none => throw (.invalidSyntax (String.ofList item))
  | some (before, after) =>
      let name := String.ofList (Text.trim after)
      match Level.ofAnyCase? name with
      | none => throw (.invalidLevel name)
      | some level =>
          let target := String.ofList (Text.trim before)
          if target ≠ Config.defaultKey then
            checkTarget target
          return (target, level)

/-- Read settings; the first that cannot be read is reported. -/
def readSettings (text : String) : Except ControlError LevelMap := do
  let settings ← (splitAll ',' text.toList).mapM readSetting
  return LevelMap.empty.insertAll settings

/-- A configuration changed by one setting. -/
def Config.set (config : Config) (target : String) (level : Level) : Config :=
  if target = Config.defaultKey then
    { config with level }
  else
    { config with targets := config.targets.insert target level }

/-- A configuration changed by settings, one after the other. -/
def Config.setAll (config : Config) (settings : List (String × Level)) : Config :=
  settings.foldl (fun config (target, level) => config.set target level) config

end PacketClassifier.Logging
