import NodeAtlas.Json.Value
import NodeAtlas.Markdown.Cell
import NodeAtlas.Semantic.Refinement
import NodeAtlas.Text.Blank
import NodeAtlas.Text.Number

/-! Listings of the 64 base types: as aligned text, as Markdown tables and as JSON. -/

namespace NodeAtlas.Markdown.Taxonomy

def hexCode (code : UInt8) : String :=
  "0x" ++ .ofList ((Text.hexPadded 2 code.toNat).map Char.toUpper)

/-- The groups made for a type or its kind. -/
def ownRefinements (t : SemanticType) : List String :=
  (RefinementGroup.all.filter fun g =>
    match g.scope with
    | .any => false
    | s => s.accepts t).map (·.name)

def padTo (width : Nat) (s : String) : String :=
  s ++ .ofList (List.replicate (width - s.length) ' ')

/-- The greatest length of some texts. -/
def widest (texts : List String) : Nat := (texts.map String.length).foldl max 0

def textLine (nameWidth kindWidth : Nat) (t : SemanticType) : String :=
  .ofList <| Text.trimEnd <| String.toList <|
    hexCode t.code ++ "  " ++ padTo nameWidth t.name ++ "  " ++ padTo kindWidth t.kind.label ++
      "  " ++ t.summary

/-- One line for each type, in columns. -/
def text (types : List SemanticType) : String :=
  let nameWidth := widest (types.map (·.name))
  let kindWidth := widest (types.map (·.kind.label))
  .join (types.map fun t => textLine nameWidth kindWidth t ++ "\n")

def intro : List String :=
  ["# Semantic Type Taxonomy", "",
    "Each semantic type is one byte laid out as \x60[ss kk tt ll]\x60: super kind,",
    "kind, super type, and a 2-bit language-specific refinement. The table",
    "lists the 64 base types (refinement bits zero).", ""]

def tableHead (s : SuperKind) : List String :=
  ["## " ++ s.name, "", "| Code | Semantic Type | Kind | Refinements | Description |",
    "|------|---------------|------|-------------|-------------|"]

def tableLine (t : SemanticType) : String :=
  let groups := ownRefinements t
  let refinements := if groups.isEmpty then "-" else ", ".intercalate groups
  s!"| \x60{hexCode t.code}\x60 | \x60{t.name}\x60 | {t.kind.label} | {refinements} | " ++
    s!"{cell t.summary} |"

/-- A table begins wherever the super kind changes, with an empty line after the one before. -/
def tables (current : Option SuperKind) : List SemanticType → List String
  | [] => []
  | t :: rest =>
    let head :=
      if current = some t.superKind then []
      else (if current.isSome then [""] else []) ++ tableHead t.superKind
    head ++ tableLine t :: tables (some t.superKind) rest

def markdown (types : List SemanticType) : String := joinLines (intro ++ tables none types) ++ "\n"

def toJson (t : SemanticType) : Json.Value :=
  .object [("code", .text (hexCode t.code)), ("name", .text t.name), ("kind", .text t.kind.label),
    ("super_kind", .text t.superKind.name),
    ("refinements", .array ((ownRefinements t).map .text)), ("summary", .text t.summary)]

/-- One object for each type. -/
def json (types : List SemanticType) : String :=
  (Json.Value.array (types.map toJson)).pretty ++ "\n"

end NodeAtlas.Markdown.Taxonomy
