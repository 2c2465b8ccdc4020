import NodeAtlas.CommandLine.Options
import NodeAtlas.Files.Discovery
import NodeAtlas.Generation
import NodeAtlas.Language.Registry
import NodeAtlas.Markdown.Taxonomy
import NodeAtlas.Syntax.Listing
import NodeAtlas.Text.Quote

/-!
The program: what a run with some options prints, how it changes the files, and how it ends.
-/

namespace NodeAtlas.Program

/-- A piece of the error output. How much time has passed is known only where a run is carried
out. -/
inductive Note where
  | text (s : String)
  | elapsed
  deriving DecidableEq, Repr

structure World where
  tree : FileTree
  stdout : String := ""
  stderr : List Note := []

inductive Failure where
  | noSettings (path : String)
  | unreadableSettings (path : String)
  | settings (path : String) (cause : Settings.Failure)
  | discovery (cause : Discovery.Failure)
  | generation (cause : Generation.Failure)
  | unknownLanguage (name : String)
  | noLanguage (path : String)
  | unreadableSource (path : String)
  deriving DecidableEq, Repr

def languageNames : String := ", ".intercalate (Language.builtin.map (·.name))

def Failure.message : Failure → String
  | noSettings path => "config file not found: " ++ path
  | unreadableSettings path => "failed to read config " ++ path
  | settings path .malformed => "failed to parse " ++ path
  | settings path (.excludePattern p) => s!"failed to parse {path}: invalid exclude pattern: {p}"
  | discovery cause => cause.message
  | generation cause => cause.message
  | unknownLanguage name => s!"unknown language \x60{name}\x60 (available: {languageNames})"
  | noLanguage path => s!"cannot infer language for {path}; pass --language"
  | unreadableSource path => "failed to read " ++ path

/-- A run can fail, and what it did before stays. -/
abbrev Run := ExceptT Failure (StateM World)

def print (s : String) : Run Unit := modify fun w => { w with stdout := w.stdout ++ s }

def note (notes : List Note) : Run Unit := modify fun w => { w with stderr := w.stderr ++ notes }

/-- A line of the error output that is printed only for debugging. -/
def debug (o : Options) (notes : List Note) : Run Unit :=
  if o.debug then note ([.text "debug: "] ++ notes ++ [.text "\n"]) else return

def orFail {ε α : Type} (label : ε → Failure) : Except ε α → Run α
  | .ok a => return a
  | .error e => throw (label e)

/-- Prints the 64 base types. -/
def listTypes (o : Options) : Run Nat := do
  print (match o.format with
    | .json => Markdown.Taxonomy.json SemanticType.all
    | _ => Markdown.Taxonomy.text SemanticType.all)
  return 0

/-- The language that is asked for, or that goes with the extension of a path. -/
def language (o : Options) (path : String) : Except Failure Language :=
  match o.language with
  | some name =>
    match Language.ofName? name with
    | some l => .ok l
    | none => .error (.unknownLanguage name)
  | none =>
    match (Path.extension? path).bind Language.ofExtension? with
    | some l => .ok l
    | none => .error (.noLanguage path)

/-- Prints the nodes of a source file. -/
def parseSource (o : Options) (path : String) : Run Nat := do
  let l ← orFail id (language o path)
  debug o [.text s!"parsing {path} as {l.name}"]
  match (← get).tree.readText? path with
  | none => throw (.unreadableSource path)
  | some source =>
    let rows := (l.parse source.toList).flatten l
    debug o [.text s!"{rows.length} nodes in ", .elapsed]
    print (match o.format with
      | .json => FlatRow.json rows
      | _ => FlatRow.text rows)
    return 0

def defaultSettingsPath : String := ".semtypes.yml"

/-- The settings and the file they come from. Only a file that is asked for has to be there. -/
def readSettings (t : FileTree) (config : Option String) :
    Except Failure (Settings × Option String) :=
  let path := config.getD defaultSettingsPath
  if (t.entry? path).isNone then
    if config.isSome then .error (.noSettings path) else .ok ({}, none)
  else
    match t.readText? path with
    | none => .error (.unreadableSettings path)
    | some text =>
      match Settings.parse text with
      | .ok s => .ok (s, some path)
      | .error cause => .error (.settings path cause)

def loadSettings (o : Options) : Run Settings := do
  let (s, source) ← orFail id (readSettings (← get).tree o.config)
  debug o [.text "config loading: ", .elapsed]
  debug o [.text (match source with
    | some path => "config loaded from: " ++ path
    | none => "no config file found")]
  debug o [.text ("excludes: " ++ Text.quotedList s.exclude)]
  return s

/-- Finds and reads the definition files. -/
def readOutcomes (o : Options) (s : Settings) : Run (List Outcome) := do
  let t := (← get).tree
  let paths := if o.paths = [] then [s.definitions] else o.paths
  let files ← orFail .discovery (Discovery.discover t s.exclude paths)
  debug o [.text s!"{files.length} def files discovered"]
  let outcomes ← orFail .generation (Generation.outcomes t files)
  let rows := Definition.total (outcomes.map (·.document.rowCount))
  debug o [.text s!"parsed {outcomes.length} files ({rows} rows) in ", .elapsed]
  return outcomes

/-- Compares the outputs with the files. -/
def check (o : Options) (outputs : List Output) : Run Nat := do
  let stale ← orFail .generation (Generation.check (← get).tree outputs)
  print (.join (stale.map fun s => s!"{s.1.path}: {s.2.reason}\n"))
  debug o [.text s!"{outputs.length} outputs checked, {stale.length} stale"]
  return if stale = [] then 0 else 1

/-- Writes the outputs. -/
def write (o : Options) (dir : String) (outputs : List Output) : Run Nat := do
  let (tree, failure) := Generation.write (← get).tree outputs
  modify fun w => { w with tree := tree }
  match failure with
  | some cause => throw (.generation cause)
  | none =>
    debug o [.text "writing outputs: ", .elapsed]
    print s!"Generated {outputs.length} files in {dir}\n"
    return 0

/-- Reports on the definition files, and unless they fail, makes their pages. -/
def generate (o : Options) : Run Nat := do
  let s ← loadSettings o
  let outcomes ← readOutcomes o s
  let diagnostics := outcomes.flatMap (·.diagnostics)
  let failing := diagnostics.any (·.severity.reaches o.failLevel)
  let report := Report.render o.format diagnostics outcomes.length
  if o.validate then
    print report
    return if failing then 1 else 0
  if diagnostics ≠ [] then note [.text report]
  if failing then return 1
  let dir := o.output.getD s.output
  let outputs ← orFail .generation (Generation.plan outcomes s dir (s.hasIndex && !o.noIndex))
  if o.check then check o outputs
  else if o.stdout then
    print (.join (outputs.map (·.contents)))
    return 0
  else write o dir outputs

/-- A run, whose result is its exit code. -/
def run (o : Options) : Run Nat :=
  if o.listTypes then listTypes o
  else
    match o.parse with
    | some path => parseSource o path
    | none => generate o

/-- A run in a file tree: how it ends, and what it leaves. -/
def runIn (o : Options) (t : FileTree) : Except Failure Nat × World :=
  (run o).run.run { tree := t }

end NodeAtlas.Program
