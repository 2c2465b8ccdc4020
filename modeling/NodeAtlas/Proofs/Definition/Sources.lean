import NodeAtlas.Definition.Assembly
import NodeAtlas.Definition.Printer
import NodeAtlas.Proofs.Definition.Tokens

/-!
Which sources can be written so that they are read again, and what is read then. Places follow from
the text that stands before them.
-/

namespace NodeAtlas.Definition

open Text

namespace RowSource

structure Valid (r : RowSource) : Prop where
  expressions : ∀ e ∈ [r.semanticType, r.nameExtraction, r.nativeExtraction, r.flags],
    IsExpression e
  /-- A brief is one line without a closing mark. -/
  brief : ∀ b ∈ r.brief, trim b = b ∧ '\n' ∉ b ∧ ¬ ['@', '\x7d'] <:+: b

def briefText (r : RowSource) : List Char :=
  match r.brief with
  | none => []
  | some b => "/// @brief ".toList ++ b ++ ['\n']

def text (r : RowSource) : List Char := r.lines.flatMap (· ++ ['\n'])

/-- The row of a source whose text begins at a position. -/
def row (group : Option String) (p : Position) (r : RowSource) : Row :=
  ⟨.ofList r.rawType, .ofList r.semanticType, .ofList r.nameExtraction,
    .ofList r.nativeExtraction, .ofList r.flags, r.brief.map .ofList, group,
    positionAfter p r.briefText⟩

end RowSource

/-- The rows of sources that are written one after another. -/
def rowsFrom (group : Option String) (p : Position) : List RowSource → List Row
  | [] => []
  | r :: rs => r.row group p :: rowsFrom group (positionAfter p r.text) rs

/-- A text in a group header. -/
structure IsHeaderText (s : List Char) : Prop where
  trimmed : trim s = s
  line : '\n' ∉ s
  closing : ¬ ['*', '/'] <:+: s

namespace GroupSource

structure Valid (g : GroupSource) : Prop where
  name_ne : g.name ≠ []
  name : ∀ c ∈ g.name, isWordChar c = true
  title_ne : g.title ≠ []
  title : IsHeaderText g.title
  brief : ∀ b ∈ g.brief, IsHeaderText b ∧ ¬ ['@', '\x7b'] <:+: b
  description : ∀ d ∈ g.description,
    IsHeaderText d ∧ d ≠ [] ∧ d.head? ≠ some '@' ∧ ¬ ['@', '\x7b'] <:+: d
  rows : ∀ r ∈ g.rows, r.Valid

/-- The comment at the beginning of a group. -/
def headerText (g : GroupSource) : List Char :=
  ("/**".toList :: g.header.map (" * ".toList ++ ·) ++ [" */".toList]).flatMap (· ++ ['\n'])

def text (g : GroupSource) : List Char := g.lines.flatMap (· ++ ['\n'])

/-- The group of a source whose text begins at a position. -/
def group (p : Position) (g : GroupSource) : Group :=
  ⟨.ofList g.name, .ofList g.title, .ofList (g.brief.getD []),
    .ofList ([' '].intercalate g.description), p,
    rowsFrom (some (.ofList g.name)) (positionAfter p g.headerText) g.rows⟩

end GroupSource

namespace Item

def Valid : Item → Prop
  | row r => r.Valid
  | group g => g.Valid

def text (i : Item) : List Char := i.lines.flatMap (· ++ ['\n'])

/-- The groups of items that are written one after another. -/
def groupsFrom (p : Position) : List Item → List Group
  | [] => []
  | row r :: is => groupsFrom (positionAfter p r.text) is
  | group g :: is => g.group p :: groupsFrom (positionAfter p g.text) is

/-- The rows outside groups. -/
def ungroupedFrom (p : Position) : List Item → List Row
  | [] => []
  | row r :: is => r.row none p :: ungroupedFrom (positionAfter p r.text) is
  | group g :: is => ungroupedFrom (positionAfter p g.text) is

/-- The document of items that make up a file. -/
def document (path : String) (items : List Item) : Document :=
  ⟨path, {}, groupsFrom .start items, ungroupedFrom .start items⟩

end Item

end NodeAtlas.Definition
