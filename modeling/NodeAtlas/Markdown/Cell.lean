import NodeAtlas.Text.Case
import NodeAtlas.Text.Search

/-! Pieces of Markdown: table cells, code spans and anchors. -/

namespace NodeAtlas.Markdown

/-- Bars get a backslash and line feeds become spaces. -/
def escapeCell : List Char → List Char
  | [] => []
  | c :: rest =>
    if c = '|' then '\\' :: '|' :: escapeCell rest
    else if c = '\n' then ' ' :: escapeCell rest
    else c :: escapeCell rest

def cell (text : String) : String := .ofList (escapeCell text.toList)

/-- A code span for a table cell. A text with a backtick is set off by two of them and a space. -/
def codeSpan (raw : String) : String :=
  if raw.toList.contains '\x60' then "\x60\x60 " ++ cell raw ++ " \x60\x60"
  else "\x60" ++ cell raw ++ "\x60"

/-- A semantic type expression without the namespaces that a reader can do without. -/
def plainExpr (expr : List Char) : List Char :=
  Text.eraseAll "ASTSemanticType::".toList (Text.eraseAll "SemanticRefinements::".toList expr)

def typeText (expr : String) : String := .ofList (plainExpr expr.toList)

/-- The anchor of a heading: lower case, with hyphens for spaces and slashes. -/
def anchor (title : String) : String :=
  .ofList ((Text.lowercase title.toList).map fun c => if c = ' ' || c = '/' then '-' else c)

/-- Lines as one text, without a line feed after the last. -/
def joinLines (ls : List String) : String := "\n".intercalate ls

end NodeAtlas.Markdown
