import NodeAtlas.Files.Path
import NodeAtlas.Language.Names
import NodeAtlas.Position

/-! What a definition file says: a heading, groups of rows, and rows outside groups. -/

namespace NodeAtlas.Definition

/-- A row as written; its expressions are resolved elsewhere. -/
structure Row where
  rawType : String
  semanticType : String
  nameExtraction : String
  nativeExtraction : String
  flags : String
  brief : Option String
  group : Option String
  position : Position
  deriving DecidableEq, Repr

structure Group where
  name : String
  title : String
  brief : String
  description : String
  position : Position
  rows : List Row := []
  deriving DecidableEq, Repr

/-- The texts of the file block. -/
structure Heading where
  brief : String := ""
  details : String := ""
  characteristics : String := ""
  deriving DecidableEq, Repr

structure Document where
  path : String
  heading : Heading
  groups : List Group
  ungrouped : List Row
  deriving DecidableEq, Repr

def total : List Nat → Nat
  | [] => 0
  | n :: rest => n + total rest

namespace Document

def fileName (d : Document) : String := (Path.fileName? d.path).getD d.path

def stem (d : Document) : String := Language.stemOf d.fileName

def language (d : Document) : String := Language.titleName d.stem

/-- Every row in source order. -/
def rows (d : Document) : List Row :=
  (d.groups.flatMap Group.rows ++ d.ungrouped).mergeSort fun a b => a.position.le b.position

def rowCount (d : Document) : Nat := total (d.groups.map (·.rows.length)) + d.ungrouped.length

end Document

end NodeAtlas.Definition
