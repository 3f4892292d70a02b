import PacketClassifier.Change
import PacketClassifier.Logging.Config
import PacketClassifier.Yaml.Reader

/-!
# Configurations of pipelines

A configuration names a pipeline, says what matcher each of its tables has, and
how to log.  It can be read from a document, in which every part may be left
out.  Keys nobody knows are ignored; a known key is given once.
-/

namespace PacketClassifier

/-- Why a configuration is refused. -/
inductive ConfigError where
  /-- The document cannot be read, or does not describe a configuration. -/
  | malformed
  | noTables
  | tooManyTables (count : Nat)
deriving DecidableEq

/-- The largest number of tables: the last table number is reserved. -/
def maxTables : Nat := 255

/-- What to tell the author of a configuration; a malformed one has no fixed text. -/
def ConfigError.message? : ConfigError → Option String
  | .malformed => none
  | .noTables => some "A pipeline needs at least one table"
  | .tooManyTables count =>
      some ("Too many tables: " ++ Text.decimal count ++ " (at most " ++
        Text.decimal maxTables ++ ")")

structure PipelineConfig where
  name : String := "flowpipe"
  /-- The kind of matcher of each table. -/
  tables : List MatcherKind := [MatcherKind.preferred]
  logging : Logging.Config := {}
deriving DecidableEq, Inhabited

namespace PipelineConfig

/-- A pipeline of `count` tables with matchers of one kind. -/
def uniform (name : String) (count : Nat) (kind : MatcherKind) :
    PipelineConfig where
  name
  tables := List.replicate count kind

/-- Refuse a configuration with no table, or with too many. -/
def validate (config : PipelineConfig) : Except ConfigError Unit :=
  if config.tables.isEmpty then
    .error .noTables
  else if maxTables < config.tables.length then
    .error (.tooManyTables config.tables.length)
  else
    .ok ()

end PipelineConfig

/-! ## Reading configurations from documents -/

namespace Yaml.Node

/-- A text: any scalar is one. -/
def asText? : Node → Option String
  | .scalar _ text => some text
  | _ => none

/-- A truth value, which is not quoted. -/
def asBool? : Node → Option Bool
  | .scalar .plain text =>
      if text ∈ ["true", "True", "TRUE"] then some true
      else if text ∈ ["false", "False", "FALSE"] then some false
      else none
  | _ => none

/-- A list; what is left out has no items. -/
def asItems? : Node → Option (List Node)
  | .sequence items => some items
  | .scalar .plain "" => some []
  | _ => none

/-- A mapping from texts; what is left out has no pairs. -/
def asPairs? : Node → Option (List (String × Node))
  | .mapping pairs =>
      pairs.mapM (fun (key, value) => key.asText?.map (fun name => (name, value)))
  | .scalar .plain "" => some []
  | _ => none

/-- The value of a key, or `default` if the key is not given; it is given once. -/
def keyOr {α : Type} (pairs : List (String × Node)) (key : String) (default : α)
    (decode : Node → Option α) : Option α :=
  match pairs.filter (fun (name, _) => name == key) with
  | [] => some default
  | [(_, value)] => decode value
  | _ => none

end Yaml.Node

namespace PipelineConfig

open Yaml (Node)

/-- The levels of targets; a target given twice keeps its first place. -/
def decodeTargets (node : Node) : Option Logging.LevelMap := do
  let pairs ← node.asPairs?
  let assignments ← pairs.mapM (fun (target, value) => do
    return (target, ← Logging.Level.ofText? (← value.asText?)))
  return Logging.LevelMap.empty.insertAll assignments

def decodeLogging (node : Node) : Option Logging.Config := do
  let pairs ← node.asPairs?
  let level ← Node.keyOr pairs "default" .info
    (fun value => value.asText? >>= Logging.Level.ofText?)
  let targets ← Node.keyOr pairs "targets" Logging.LevelMap.empty decodeTargets
  let threadNames ← Node.keyOr pairs "thread_names" true Node.asBool?
  let lineNumbers ← Node.keyOr pairs "line_numbers" true Node.asBool?
  return { level, targets, threadNames, lineNumbers }

def decodeTable (node : Node) : Option MatcherKind := do
  let pairs ← node.asPairs?
  Node.keyOr pairs "algorithm" MatcherKind.preferred
    (fun value => value.asText? >>= MatcherKind.ofText?)

/-- The configuration that a document describes. -/
def decode (node : Node) : Option PipelineConfig := do
  let pairs ← node.asPairs?
  let name ← Node.keyOr pairs "name" ({} : PipelineConfig).name Node.asText?
  let tables ← Node.keyOr pairs "tables" ({} : PipelineConfig).tables
    (fun value => value.asItems? >>= List.mapM decodeTable)
  let logging ← Node.keyOr pairs "logging" {} decodeLogging
  return { name, tables, logging }

def ofYaml (text : String) : Except ConfigError PipelineConfig := do
  match Yaml.read text >>= decode with
  | none => throw .malformed
  | some config =>
      config.validate
      return config

end PipelineConfig

end PacketClassifier
