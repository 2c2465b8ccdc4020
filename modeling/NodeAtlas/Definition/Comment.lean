import NodeAtlas.Text.Blank
import NodeAtlas.Text.Lines

/-! The text of block comments. -/

namespace NodeAtlas.Definition.Comment

/-- A line without the star that decorates it. -/
def plainLine (line : List Char) : List Char :=
  Text.trimEnd <| match Text.trimStart line with
    | '*' :: ' ' :: rest => rest
    | '*' :: rest => rest
    | s => s

/-- The text of a block comment: its lines without decoration, trimmed as a whole. -/
def plainText (body : List Char) : List Char :=
  Text.trim (Text.unlines ((Text.lines body).map plainLine))

end NodeAtlas.Definition.Comment
