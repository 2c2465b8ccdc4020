import NodeAtlas.Glob.Match
import NodeAtlas.Text.Blank
import NodeAtlas.Text.Search

/-!
Ignore rules, one pattern to a line. A later rule overrides an earlier one, and an exclamation
mark turns a rule round.
-/

namespace NodeAtlas.Glob

structure Rule where
  matcher : Matcher
  keeps : Bool
  directoriesOnly : Bool

/-- What rules say of a path. -/
inductive Verdict where
  | ignore | keep
  deriving DecidableEq, Repr

namespace Rule

/-- A line without the blanks at its end, unless the last of them is escaped. -/
def trimLine (line : List Char) : List Char :=
  if (Text.dropTail? ['\\', ' '] line).isSome then line else Text.trimEnd line

/-- The pattern that is matched for a line: without a slash it may match anywhere, and with two
stars at the end it matches only what is inside. -/
def anchored (rooted : Bool) (pattern : List Char) : List Char :=
  let floating := !rooted && !pattern.contains '/' && pattern ≠ ['*', '*']
  let whole := if floating then '*' :: '*' :: '/' :: pattern else pattern
  if (Text.dropTail? ['/', '*', '*'] whole).isSome then whole ++ ['/', '*'] else whole

/-- Builds the rule of a pattern whose mark is taken off. -/
def ofPattern? (lenient keeps rooted : Bool) (pattern : List Char) : Option Rule := do
  let (body, directoriesOnly) := match pattern.reverse with
    | '/' :: '\\' :: front => (front.reverse, true)
    | '/' :: front => (front.reverse, true)
    | _ => (pattern, false)
  let matcher ← Matcher.ofPattern? true lenient (anchored rooted body)
  return ⟨matcher, keeps, directoriesOnly⟩

/-- The rule of a line that is neither empty nor a comment. -/
def ofText? (lenient : Bool) : List Char → Option Rule
  | '\\' :: '!' :: rest => ofPattern? lenient false false ('!' :: rest)
  | '\\' :: '#' :: rest => ofPattern? lenient false false ('#' :: rest)
  | '!' :: '/' :: rest => ofPattern? lenient true true rest
  | '!' :: rest => ofPattern? lenient true false rest
  | '/' :: rest => ofPattern? lenient false true rest
  | s => ofPattern? lenient false false s

/-- The rule of a line; comments, empty lines and incomplete patterns have none. -/
def ofLine? (lenient : Bool) (line : List Char) : Option Rule :=
  match line with
  | '#' :: _ => none
  | _ =>
    match trimLine line with
    | [] => none
    | s => ofText? lenient s

def applies (r : Rule) (path : String) (isDirectory : Bool) : Bool :=
  (!r.directoriesOnly || isDirectory) && r.matcher.accepts path

def verdict (r : Rule) : Verdict := if r.keeps then .keep else .ignore

end Rule

/-- What the last rule that applies says of a path relative to the place of the rules. -/
def judge? (rules : List Rule) (path : String) (isDirectory : Bool) : Option Verdict :=
  (rules.reverse.find? (·.applies path isDirectory)).map Rule.verdict

end NodeAtlas.Glob
