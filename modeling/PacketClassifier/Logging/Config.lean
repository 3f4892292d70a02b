import PacketClassifier.Logging.LevelMap
import PacketClassifier.Text.Numeral

/-!
# Configurations of logging

A configuration of logging gives a level to everything, other levels to some
targets, and says what log lines show.  It is written in two ways: as settings
between commas, and as a table.
-/

namespace PacketClassifier.Logging

/-- Which log lines are written, and what they show. -/
structure Config where
  /-- The level of the targets that have none of their own. -/
  level : Level := .info
  targets : LevelMap := LevelMap.empty
  threadNames : Bool := true
  lineNumbers : Bool := true
deriving DecidableEq, Inhabited

namespace Config

/-- The name under which settings give the level of the remaining targets. -/
def defaultKey : String := "default"

/-- One setting: a target and its level. -/
def settingText (target : String) (level : Level) : String :=
  target ++ "=" ++ level.text

/-- A configuration as settings between commas. -/
def settings (config : Config) : String :=
  Text.joined "," (settingText defaultKey config.level ::
    config.targets.toList.map (fun (target, level) => settingText target level))

/-- A row of the table of levels. -/
def row (target level : String) : String :=
  Text.alignRight 48 target ++ " │ " ++ Text.alignRight 8 level

/-- A configuration as a table, the default at its end. -/
def table (config : Config) : String :=
  Text.joined "\n" (
    ["", "                 ──────── Tracing configuration per target ────────",
      row "TARGET" "LEVEL"] ++
    config.targets.toList.map (fun (target, level) => row target level.text) ++
    [row "(default)" config.level.text])

end Config

end PacketClassifier.Logging
