import NodeAtlas.Json.Value
import NodeAtlas.Syntax.FlatRow

/-! Listings of flat rows: as indented text and as JSON. -/

namespace NodeAtlas.FlatRow

def toJson (r : FlatRow) : Json.Value :=
  .object [("node_id", .number r.nodeId), ("kind", .text r.kind),
    ("semantic_type", .text r.semanticType), ("name", .text (.ofList r.name)),
    ("start_line", .number r.start.line), ("start_column", .number r.start.column),
    ("end_line", .number r.stop.line), ("end_column", .number r.stop.column),
    ("parent_id", (r.parentId.map Json.Value.number).getD .null), ("depth", .number r.depth),
    ("children_count", .number r.childrenCount), ("flags", .number r.flags.bits.toNat)]

def json (rows : List FlatRow) : String := (Json.Value.array (rows.map toJson)).pretty ++ "\n"

/-- The kind, the range and the type of a node, indented by its depth, and its name if any. -/
def line (r : FlatRow) : String :=
  .ofList (List.replicate (2 * r.depth) ' ') ++ r.kind ++
    s!" {r.start.line}:{r.start.column}-{r.stop.line}:{r.stop.column} {r.semanticType}" ++
    if r.name = [] then "" else s!" \x60{String.ofList r.name}\x60"

def text (rows : List FlatRow) : String := .join (rows.map (·.line ++ "\n"))

end NodeAtlas.FlatRow
