import NodeAtlas.Definition.Document
import NodeAtlas.Markdown.Cell

/-! The reference page of one language. -/

namespace NodeAtlas.Markdown.Page

open Definition

def tableHead : List String :=
  ["| Node Type | Semantic Type | Name Extraction | Description |",
    "|-----------|---------------|-----------------|-------------|"]

def tableLine (r : Row) : String :=
  "| " ++ codeSpan r.rawType ++ " | " ++ cell (typeText r.semanticType) ++ " | " ++
    cell r.nameExtraction ++ " | " ++ cell (r.brief.getD "") ++ " |"

def table (rows : List Row) : List String := tableHead ++ rows.map tableLine ++ [""]

/-- A text with an empty line after it, if there is a text. -/
def paragraph (text : String) : List String := if text = "" then [] else [text, ""]

def contents (groups : List Group) : List String :=
  if groups.isEmpty then []
  else ["## Node Categories", ""] ++
    groups.map (fun g => s!"- [{g.title}](#{anchor g.title})") ++ [""]

def groupSection (g : Group) : List String :=
  ["## " ++ g.title, ""] ++ paragraph g.brief ++ paragraph g.description ++
    if g.rows.isEmpty then [] else table g.rows

def lines (d : Document) : List String :=
  [s!"# {d.language} Node Types", ""] ++
    (if d.heading.brief = "" then [] else ["> " ++ d.heading.brief, ""]) ++
    (if d.heading.characteristics = "" then []
      else ["## Language Characteristics", "", d.heading.characteristics, ""]) ++
    contents d.groups ++ d.groups.flatMap groupSection ++
    (if d.ungrouped.isEmpty then [] else ["## Other Node Types", ""] ++ table d.ungrouped) ++
    ["---", "", s!"*Generated from \x60{d.fileName}\x60*", ""]

def render (d : Document) : String := joinLines (lines d)

end NodeAtlas.Markdown.Page
