/-!
Paths as written: a text with slashes, compared part by part. A dot counts only at the beginning,
and repeated or trailing slashes do not count.
-/

namespace NodeAtlas.Path

/-- The parts in the order in which paths are sorted. -/
inductive Part where
  | root | here | up
  | name (text : String)
  deriving DecidableEq, Repr

namespace Part

def rank : Part → Nat
  | root => 0
  | here => 1
  | up => 2
  | name _ => 3

def ofText (s : String) : Part := if s = ".." then up else name s

def le : Part → Part → Bool
  | name a, name b => a ≤ b
  | p, q => p.rank ≤ q.rank

end Part

/-- The texts between slashes that are neither empty nor a dot. -/
def segments (path : String) : List String :=
  ((path.toList.splitOn '/').map String.ofList).filter fun s => s ≠ "" && s ≠ "."

def isAbsolute (path : String) : Bool := path.toList.head? == some '/'

/-- What a path starts with: the root, a dot, or nothing. -/
def origin (path : String) : List Part :=
  if isAbsolute path then [.root]
  else if (path.toList.splitOn '/').head? = some ['.'] then [.here]
  else []

def parts (path : String) : List Part := origin path ++ (segments path).map Part.ofText

/-- The last part, when it is a name. -/
def fileName? (path : String) : Option String :=
  match (parts path).getLast? with
  | some (.name s) => some s
  | _ => none

/-- A path below another one; an absolute path stands for itself. -/
def join (base path : String) : String :=
  if isAbsolute path || base = "" then path
  else if base.toList.getLast? = some '/' then base ++ path
  else base ++ "/" ++ path

/-- Takes slashes, and dots between them, off the end of a path that is given backwards. -/
def trimSlashes : List Char → List Char
  | '/' :: rest => if rest = [] then ['/'] else trimSlashes rest
  | '.' :: rest => if rest.head? = some '/' then trimSlashes rest else '.' :: rest
  | s => s

/-- The directory of a path: what is before its last part. -/
def parent (path : String) : String :=
  .ofList (trimSlashes ((trimSlashes path.toList.reverse).dropWhile (· ≠ '/'))).reverse

/-- The extension of the last part: what follows its last dot, if something is before the dot. -/
def extension? (path : String) : Option String := do
  let name ← fileName? path
  let (tail, front) := name.toList.reverse.span (· ≠ '.')
  if front.length ≤ 1 then none else some (.ofList tail.reverse)

/-- The order of part lists, a beginning before what extends it. -/
def leParts : List Part → List Part → Bool
  | [], _ => true
  | _ :: _, [] => false
  | p :: ps, q :: qs => if p = q then leParts ps qs else p.le q

def le (a b : String) : Bool := leParts (parts a) (parts b)

/-- Whether two texts are the same path. -/
def same (a b : String) : Bool := parts a == parts b

end NodeAtlas.Path
