import NodeAtlas.Definition.Literal

/-! Definition files as they are written: every tag on a line of its own, every row on one line. -/

namespace NodeAtlas.Definition

/-- A row to be written; its expressions stand as they are. -/
structure RowSource where
  rawType : List Char
  semanticType : List Char
  nameExtraction : List Char
  nativeExtraction : List Char
  flags : List Char
  brief : Option (List Char) := none
  deriving DecidableEq, Repr

structure GroupSource where
  name : List Char
  title : List Char
  brief : Option (List Char) := none
  description : List (List Char) := []
  rows : List RowSource := []
  deriving DecidableEq, Repr

/-- A part of a definition file. -/
inductive Item where
  | row (r : RowSource)
  | group (g : GroupSource)
  deriving DecidableEq, Repr

namespace RowSource

def arguments (r : RowSource) : List (List Char) :=
  [Literal.encode r.rawType, r.semanticType, r.nameExtraction, r.nativeExtraction, r.flags]

def lines (r : RowSource) : List (List Char) :=
  (r.brief.map ("/// @brief ".toList ++ ·)).toList ++
    ["DEF_TYPE(".toList ++ [',', ' '].intercalate r.arguments ++ [')']]

end RowSource

namespace GroupSource

/-- The texts of the header, without the stars in front of them. -/
def header (g : GroupSource) : List (List Char) :=
  ("@defgroup ".toList ++ g.name ++ ' ' :: g.title) ::
    ((g.brief.map ("@brief ".toList ++ ·)).toList ++ g.description ++ [['@', '\x7b']])

def lines (g : GroupSource) : List (List Char) :=
  "/**".toList :: g.header.map (" * ".toList ++ ·) ++ " */".toList ::
    g.rows.flatMap RowSource.lines ++ ["/** @\x7d */".toList]

end GroupSource

namespace Item

def lines : Item → List (List Char)
  | row r => r.lines
  | group g => g.lines

/-- The text of a definition file. -/
def print (items : List Item) : List Char := (items.flatMap lines).flatMap (· ++ ['\n'])

end Item

end NodeAtlas.Definition
