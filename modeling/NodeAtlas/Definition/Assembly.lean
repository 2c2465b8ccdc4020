import NodeAtlas.Definition.Block
import NodeAtlas.Definition.Finding
import NodeAtlas.Definition.Lexer

/-!
Putting a document together from tokens. At every token there is at most one open group and at
most one brief that waits for its row.
-/

namespace NodeAtlas.Definition

/-- A brief and the last line it came from. -/
structure PendingBrief where
  text : List Char
  line : Nat

structure Assembly where
  heading : Option Heading := none
  closed : List Group := []
  current : Option Group := none
  ungrouped : List Row := []
  brief : Option PendingBrief := none
  findings : List (Position × Finding) := []

namespace Assembly

def report (a : Assembly) (p : Position) (f : Finding) : Assembly :=
  { a with findings := a.findings ++ [(p, f)] }

/-- Gives up an open group that no mark has closed. -/
def abandonGroup (a : Assembly) : Assembly :=
  match a.current with
  | none => a
  | some g =>
    { a with closed := a.closed ++ [g], current := none }.report g.position (.unclosedGroup g.name)

def openGroup (a : Assembly) (g : Group) : Assembly :=
  { a.abandonGroup with current := some g, brief := none }

def closeGroup (a : Assembly) : Assembly :=
  { a with closed := a.closed ++ a.current.toList, current := none, brief := none }

def isClosingMark (text : List Char) : Bool := Text.occursIn ['@', '\x7d'] text

/-- Only the first file block counts as one. -/
def docBlock (a : Assembly) (p : Position) (text : List Char) : Assembly :=
  if a.heading.isNone && Block.isFileBlock text then
    { a with heading := some (Block.heading text) }
  else
    match Block.firstGroup? text with
    | some (name, title) => a.openGroup (Block.group name title text p)
    | none =>
      if isClosingMark text then a.closeGroup
      else
        match Block.brief? text with
        | some b => { a with brief := some ⟨b, p.line + ((Text.lines text).length - 1)⟩ }
        | none => a

/-- Extends a brief by the text of the next line. -/
def continueBrief (b : PendingBrief) (p : Position) (text : List Char) : PendingBrief :=
  if b.line + 1 = p.line then ⟨b.text ++ ' ' :: text, p.line⟩ else b

def docLine (a : Assembly) (p : Position) (text : List Char) : Assembly :=
  if isClosingMark text then a.closeGroup
  else
    match Text.cut? "@brief".toList text with
    | some (_, rest) => { a with brief := some ⟨Text.trim rest, p.line⟩ }
    | none =>
      if text ≠ [] && text.head? ≠ some '@' then
        { a with brief := a.brief.map (continueBrief · p text) }
      else a

def addRow (a : Assembly) (r : Row) : Assembly :=
  match a.current with
  | some g => { a with current := some { g with rows := g.rows ++ [r] } }
  | none => { a with ungrouped := a.ungrouped ++ [r] }

/-- Five arguments, the first of them a literal, make a row. -/
def row (a : Assembly) (p : Position) (args : List (List Char)) : Assembly :=
  let cleared := { a with brief := none }
  match args with
  | [raw, semanticType, nameExtraction, nativeExtraction, flags] =>
    match Literal.decode? raw with
    | some rawType =>
      cleared.addRow
        ⟨.ofList rawType, .ofList semanticType, .ofList nameExtraction, .ofList nativeExtraction,
          .ofList flags, a.brief.map (String.ofList ·.text), a.current.map (·.name), p⟩
    | none => cleared.report p (.rawTypeNotLiteral (.ofList raw))
  | _ => cleared.report p (.argumentCount args.length)

def add (a : Assembly) (l : Located) : Assembly :=
  match l.token with
  | .docBlock text => a.docBlock l.position text
  | .docLine text => a.docLine l.position text
  | .row args => a.row l.position args
  | .malformed _ => { a with brief := none }.report l.position .unterminatedRow

def run (ts : List Located) : Assembly := (ts.foldl add {}).abandonGroup

def document (a : Assembly) (path : String) : Document :=
  ⟨path, a.heading.getD {}, a.closed, a.ungrouped⟩

def diagnostics (a : Assembly) (path : String) : List Diagnostic :=
  a.findings.map fun f => f.2.diagnostic path f.1

end Assembly

/-- A document and what was wrong with its text. -/
structure Parsed where
  document : Document
  diagnostics : List Diagnostic
  deriving DecidableEq, Repr

/-- The document of a list of tokens; `path` names the file. -/
def assemble (path : String) (ts : List Located) : Parsed :=
  let a := Assembly.run ts
  ⟨a.document path, a.diagnostics path⟩

def parse (path text : String) : Parsed := assemble path (tokens text.toList)

end NodeAtlas.Definition
