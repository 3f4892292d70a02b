import PacketClassifier.Pipeline.Basic
import PacketClassifier.Text.Quoted

/-!
# Pipelines as texts

A dump of a pipeline is a line about it and the dumps of its tables.
-/

namespace PacketClassifier.Pipeline

/-- A pipeline as written in dumps. -/
def text (pipeline : Pipeline) : String :=
  "Pipeline '" ++ pipeline.name ++ "': " ++
    Text.decimal pipeline.tables.length ++ " tables, " ++
    Text.decimal pipeline.groups.size ++ " groups\n" ++
    String.join (pipeline.tables.map (fun table => table.text pipeline.ledger))

/-- A pipeline with its parts, save its entries. -/
def structuralText (pipeline : Pipeline) : String :=
  "Pipeline \x7b name: " ++ Text.quoted pipeline.name ++ ", tables: [" ++
    Text.joined ", " (pipeline.tables.map Table.structuralText) ++
    "], groups: " ++ pipeline.groups.structuralText ++ ", .. \x7d"

end PacketClassifier.Pipeline
