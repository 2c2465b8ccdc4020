import NodeAtlas.Language.Names
import NodeAtlas.Markdown.Cell

/-! The index of languages by category. -/

namespace NodeAtlas.Markdown.Index

/-- A language whose page is the stem with the extension `.md`. -/
structure Entry where
  displayName : String
  stem : String
  category : String
  deriving DecidableEq, Repr

structure Options where
  categoryOrder : List String := Language.defaultCategoryOrder
  /-- The directory that the footer names. -/
  definitionDir : String := "src/language_configs/"

/-- A language without a category counts as other. -/
def Entry.heading (e : Entry) : String :=
  if e.category = "" then Language.otherCategory else e.category

/-- Entries are sorted by display name, then by stem. -/
def Entry.le (a b : Entry) : Bool :=
  a.displayName < b.displayName || (a.displayName == b.displayName && a.stem ≤ b.stem)

/-- The first occurrences in a list. -/
def firsts : List String → List String
  | [] => []
  | s :: rest => s :: (firsts rest).filter (· ≠ s)

/-- The categories in use: those of the order as it has them, then the others alphabetically. -/
def headings (order : List String) (entries : List Entry) : List String :=
  let used := entries.map Entry.heading
  let ordered := firsts (order.filter used.contains)
  ordered ++ (firsts (used.filter fun c => !ordered.contains c)).mergeSort fun a b => a ≤ b

def bullet (e : Entry) : String := s!"- [{e.displayName}]({e.stem}.md)"

def categorySection (entries : List Entry) (heading : String) : List String :=
  ["### " ++ heading, ""] ++
    ((entries.filter (·.heading == heading)).mergeSort Entry.le).map bullet ++ [""]

def intro : List String :=
  ["# Language Node Type Reference", "",
    "This reference documents the AST node types of every language table,",
    "organized by programming language. Each page shows:", "",
    "- **Node Type**: The tree-sitter node type string",
    "- **Semantic Type**: Universal semantic classification",
    "- **Name Extraction**: Strategy for extracting identifiers",
    "- **Description**: What the node represents", "", "## Languages", ""]

def footer (dir : String) : List String :=
  ["---", "",
    s!"*This documentation is auto-generated from the \x60.def\x60 files in \x60{dir}\x60*",
    ""]

def lines (entries : List Entry) (o : Options) : List String :=
  intro ++ (headings o.categoryOrder entries).flatMap (categorySection entries) ++
    footer o.definitionDir

def render (entries : List Entry) (o : Options) : String := joinLines (lines entries o)

end NodeAtlas.Markdown.Index
