import NodeAtlas.CommandLine.Arguments
import NodeAtlas.Markdown.Taxonomy

/-! The second program: the Markdown table of the base types, or of those of one kind. -/

namespace NodeAtlas.TypeTable

def grammar : CommandLine.Grammar where
  switches := [
    { long := "kind", role := .value fun _ => true },
    { long := "help", short := some 'h', role := .help }]
  positional := none

/-- The kind that some arguments ask for. -/
def kindOf (arguments : List String) : Except CommandLine.UsageError (Option String) := do
  return (← grammar.parse arguments).values.lookup "kind"

/-- The label of a kind, which may be given in any case. -/
def label (kind : String) : String := .ofList (Text.uppercase kind.toList)

/-- The table, or a message for a kind that is not one. -/
def render (kind : Option String) : Except String String :=
  match kind with
  | none => .ok (Markdown.Taxonomy.markdown SemanticType.all)
  | some k =>
    match SemanticType.all.filter (·.kind.label == label k) with
    | [] => .error s!"error: unknown kind \x60{label k}\x60\n"
    | types => .ok (Markdown.Taxonomy.markdown types)

end NodeAtlas.TypeTable
