import NodeAtlas.Files.Tree
import NodeAtlas.Glob.Rules

/-!
Finding definition files. Directories are walked without hidden entries and without what exclude
patterns or ignore files rule out; files that are named directly are taken as they are.
-/

namespace NodeAtlas.Discovery

/-- A definition file has the ending `_types.def` and something in front of it. -/
def isDefinitionFile (path : String) : Bool :=
  (Path.fileName? path).any fun name =>
    (Text.dropTail? "_types.def".toList name.toList).any (· ≠ [])

/-- The ignore rules of a directory, for what is below it. -/
structure Level where
  spot : Spot
  rules : List Glob.Rule
  versionRules : List Glob.Rule
  excludeRules : List Glob.Rule
  /-- Whether a repository is rooted here. -/
  isRepository : Bool

/-- The lines of a file, up to the first that is not text. -/
def textLines (content : List UInt8) : List (List Char) :=
  let pieces := content.splitOn 10
  let whole := if pieces.getLast? = some [] then pieces.dropLast else pieces
  let decoded := whole.map fun bytes => String.fromUTF8? ⟨bytes.toArray⟩
  (decoded.takeWhile Option.isSome).map fun line =>
    let s := (line.getD "").toList
    (Text.dropTail? ['\r'] s).getD s

/-- The rules in a file, which may start with a byte order mark. -/
def rulesAt (t : FileTree) (s : Spot) : List Glob.Rule :=
  match t.content? s with
  | none => []
  | some content =>
    let lines := match textLines content.toList with
      | [] => []
      | first :: rest => first.dropWhile (· = '\ufeff') :: rest
    lines.filterMap (Glob.Rule.ofLine? true)

def level (t : FileTree) (s : Spot) : Level where
  spot := s
  rules := rulesAt t (s ++ [".ignore"])
  versionRules := rulesAt t (s ++ [".gitignore"])
  excludeRules := rulesAt t (s ++ [".git", "info", "exclude"])
  isRepository := (t.get? (s ++ [".git"])).isSome

/-- The path of an entry below a level. -/
def relative (base s : Spot) : String := "/".intercalate (s.drop base.length)

/-- The first verdict that some levels give, innermost first. -/
def firstVerdict (rules : Level → List Glob.Rule) (s : Spot) (isDirectory : Bool)
    (levels : List Level) : Option Glob.Verdict :=
  levels.findSome? fun l => Glob.judge? (rules l) (relative l.spot s) isDirectory

/-- The levels up to the innermost repository; none outside of repositories. -/
def repositoryLevels : List Level → List Level
  | [] => []
  | l :: rest =>
    if l.isRepository then [l]
    else match repositoryLevels rest with
      | [] => []
      | inner => l :: inner

/-- What ignore files say of an entry: those of every level, then those of the repository. -/
def ignoreVerdict (levels : List Level) (s : Spot) (isDirectory : Bool) : Option Glob.Verdict :=
  (firstVerdict Level.rules s isDirectory levels).or
    ((firstVerdict Level.versionRules s isDirectory (repositoryLevels levels)).or
      (firstVerdict Level.excludeRules s isDirectory (repositoryLevels levels)))

def isHidden (name : String) : Bool := name.toList.head? = some '.'

/-- A walk from a directory, with its exclude rules. -/
structure Walk where
  tree : FileTree
  root : Spot
  excludes : List Glob.Rule

/-- Whether a walk passes over an entry. Excludes come first, and ignore files may keep what is
hidden. -/
def Walk.skips (w : Walk) (levels : List Level) (s : Spot) (isDirectory : Bool) : Bool :=
  match Glob.judge? w.excludes (relative w.root s) isDirectory with
  | some v => v = .ignore
  | none =>
    match ignoreVerdict levels s isDirectory with
    | some v => v = .ignore
    | none => (s.getLast?.map isHidden).getD false

/-- The definition files below a directory, at most `depth` levels down. -/
def Walk.filesBelow (w : Walk) : Nat → List Level → Spot → String → List String
  | 0, _, _, _ => []
  | depth + 1, levels, s, path =>
    let inner := level w.tree s :: levels
    (w.tree.names s).flatMap fun name =>
      let below := s ++ [name]
      let isDirectory := w.tree.isDirectoryAt below
      if w.skips inner below isDirectory then []
      else if isDirectory then w.filesBelow depth inner below (Path.join path name)
      else if isDefinitionFile name then [Path.join path name] else []

/-- The levels above a directory, innermost first. -/
def levelsAbove (t : FileTree) (s : Spot) : List Level :=
  ((List.range s.length).map fun n => level t (s.take n)).reverse

def walk (t : FileTree) (excludes : List Glob.Rule) (path : String) : List String :=
  match t.spot? path with
  | none => []
  | some s => Walk.filesBelow ⟨t, s, excludes⟩ (t.entries.length + 1) (levelsAbove t s) s path

inductive Failure where
  | excludePattern (pattern : String)
  /-- A pattern that is none for walked entries. -/
  | walkPattern (pattern : String)
  | missing (path : String)
  deriving DecidableEq, Repr

def Failure.message : Failure → String
  | excludePattern pattern | walkPattern pattern => "invalid exclude pattern: " ++ pattern
  | missing path => "path does not exist: " ++ path

/-- Exclude patterns as they apply to files that are named directly. -/
def matchers? (patterns : List String) : Except Failure (List Glob.Matcher) :=
  patterns.mapM fun p =>
    match Glob.Matcher.ofPattern? false false p.toList with
    | some m => .ok m
    | none => .error (.excludePattern p)

/-- Exclude patterns as they apply to walked entries. -/
def excludeRules? (patterns : List String) : Except Failure (List Glob.Rule) := do
  let rules ← patterns.mapM fun p =>
    let line := '!' :: p.toList
    match Glob.Rule.ofText? false (Glob.Rule.trimLine line) with
    | some r => .ok { r with keeps := false }
    | none => .error (.walkPattern p)
  return rules

/-- The definition files that one path stands for. -/
def filesAt (t : FileTree) (patterns : List String) (excluded : List Glob.Matcher)
    (path : String) : Except Failure (List String) :=
  if t.isFile path then .ok (if excluded.any (·.accepts path) then [] else [path])
  else if t.isDirectory path then do
    let rules ← excludeRules? patterns
    return walk t rules path
  else .error (.missing path)

/-- Drops a path that follows the same path. -/
def dropRepeats : List String → List String
  | [] => []
  | [p] => [p]
  | p :: q :: rest =>
    if Path.same p q then dropRepeats (p :: rest) else p :: dropRepeats (q :: rest)
termination_by ps => ps.length

/-- The definition files at some paths, sorted and each path once. -/
def discover (t : FileTree) (patterns paths : List String) : Except Failure (List String) := do
  let excluded ← matchers? patterns
  let found ← paths.mapM (filesAt t patterns excluded)
  return dropRepeats (found.flatten.mergeSort Path.le)

end NodeAtlas.Discovery
