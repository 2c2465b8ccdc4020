import NodeAtlas.Definition.Assembly
import NodeAtlas.Definition.Validation
import NodeAtlas.Digest
import NodeAtlas.Files.Tree
import NodeAtlas.Markdown.Index
import NodeAtlas.Markdown.Page
import NodeAtlas.Settings

/-!
Pages from definition files: one page for each file and an index, which are planned before they
are compared with what is there or written.
-/

namespace NodeAtlas

/-- A definition file that was read and checked. -/
structure Outcome where
  source : String
  document : Definition.Document
  diagnostics : List Diagnostic

namespace Outcome

def ofText (source text : String) : Outcome :=
  let p := Definition.parse source text
  ⟨source, p.document, Diagnostic.sort (p.diagnostics ++ p.document.validate)⟩

def stem (o : Outcome) : String := o.document.stem

def page (o : Outcome) : String := Markdown.Page.render o.document

/-- Outcomes are sorted by file name, then by path. -/
def le (a b : Outcome) : Bool :=
  a.document.fileName < b.document.fileName ||
    (a.document.fileName == b.document.fileName && Path.le a.source b.source)

def indexEntry (s : Settings) (o : Outcome) : Markdown.Index.Entry :=
  ⟨s.displayName o.stem, o.stem, s.category o.stem⟩

end Outcome

/-- A file to be generated. -/
structure Output where
  path : String
  contents : String
  deriving DecidableEq, Repr

def Output.bytes (o : Output) : ByteArray := o.contents.toUTF8

namespace Generation

inductive Failure where
  | unreadable (path : String)
  | sameLanguage (stem first second : String)
  | noDirectory (path : String)
  | unwritable (path : String)
  deriving DecidableEq, Repr

def Failure.message : Failure → String
  | unreadable path => "failed to read " ++ path
  | sameLanguage stem first second =>
    s!"language \x60{stem}\x60 is defined by both {first} and {second}"
  | noDirectory path => "failed to create " ++ path
  | unwritable path => "failed to write " ++ path

def read (t : FileTree) (path : String) : Except Failure Outcome :=
  match t.readText? path with
  | some text => .ok (.ofText path text)
  | none => .error (.unreadable path)

/-- Reads and checks definition files. -/
def outcomes (t : FileTree) (paths : List String) : Except Failure (List Outcome) := do
  return (← paths.mapM (read t)).mergeSort Outcome.le

/-! Planning -/

/-- The first two outcomes that would have the same page. -/
def clash? (earlier : List Outcome) : List Outcome → Option (Outcome × Outcome)
  | [] => none
  | o :: rest =>
    match earlier.find? (·.stem == o.stem) with
    | some first => some (first, o)
    | none => clash? (earlier ++ [o]) rest

def pageOutput (dir : String) (o : Outcome) : Output := ⟨Path.join dir (o.stem ++ ".md"), o.page⟩

/-- A directory as the index shows it: with slashes, the last one at its end. -/
def directoryLabel (dir : String) : String :=
  let label := dir.toList.map fun c => if c = '\\' then '/' else c
  .ofList (if label.getLast? = some '/' then label else label ++ ['/'])

def indexOutput (s : Settings) (dir : String) (os : List Outcome) : Output :=
  ⟨Path.join dir "index.md",
    Markdown.Index.render (os.map (Outcome.indexEntry s))
      ⟨s.categories, directoryLabel s.definitions⟩⟩

/-- The pages of some outcomes, and the index if it is wanted. -/
def plan (os : List Outcome) (s : Settings) (dir : String) (withIndex : Bool) :
    Except Failure (List Output) :=
  match clash? [] os with
  | some (first, second) => .error (.sameLanguage first.stem first.source second.source)
  | none =>
    .ok (os.map (pageOutput dir) ++ if withIndex then [indexOutput s dir os] else [])

/-! Checking -/

inductive Staleness where
  | missing | outdated
  deriving DecidableEq, Repr

def Staleness.reason : Staleness → String
  | missing => "missing"
  | outdated => "out of date"

/-- How the file of an output differs from it, by digest. -/
def staleness? (t : FileTree) (o : Output) : Except Failure (Option Staleness) :=
  match t.read? o.path with
  | some bytes =>
    let same := Digest.ofBytes bytes.toList = Digest.ofBytes o.bytes.toList
    .ok (if same then none else some .outdated)
  | none => if t.isMissing o.path then .ok (some .missing) else .error (.unreadable o.path)

/-- The outputs whose files are missing or have other contents. -/
def check (t : FileTree) : List Output → Except Failure (List (Output × Staleness))
  | [] => .ok []
  | o :: rest => do
    let found ← staleness? t o
    let others ← check t rest
    return (found.map (o, ·)).toList ++ others

/-! Writing -/

/-- Writes one output, with the directories above it. -/
def writeOne (t : FileTree) (o : Output) : FileTree × Option Failure :=
  let dir := Path.parent o.path
  let (t, made) := if dir = "" then (t, true) else t.makeDirectory dir
  if made then
    let (t, written) := t.write o.path o.bytes
    (t, if written then none else some (.unwritable o.path))
  else (t, some (.noDirectory dir))

/-- Writes outputs in order, up to the first that fails. -/
def write (t : FileTree) : List Output → FileTree × Option Failure
  | [] => (t, none)
  | o :: rest =>
    match writeOne t o with
    | (t, none) => write t rest
    | (t, some failure) => (t, some failure)

end Generation

end NodeAtlas
