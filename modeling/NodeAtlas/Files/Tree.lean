import NodeAtlas.Files.Path

/-!
Files and directories from the root down, as a value, with a working directory. There are no links:
only one list of names leads to an entry.
-/

namespace NodeAtlas

/-- The names that lead from the root to an entry. -/
abbrev Spot := List String

/-- Where a name leads from a directory. Two dots lead to the directory above, and the root is above
itself. -/
def Spot.step (s : Spot) (name : String) : Spot := if name = ".." then s.dropLast else s ++ [name]

namespace Path

/-- Where a path starts: at the root if it is absolute, and else at the working directory. -/
def start (home : Spot) (path : String) : Spot := if isAbsolute path then [] else home

/-- Where a path leads if every name on the way is that of a directory. -/
def place (home : Spot) (path : String) : Spot := (segments path).foldl Spot.step (start home path)

end Path

inductive Entry where
  | file (content : ByteArray)
  | directory

/-- The entries of a file tree, apart from its root, and the directory that relative paths start
from. -/
structure FileTree where
  entries : List (Spot × Entry) := []
  home : Spot := []

namespace FileTree

def get? (t : FileTree) (s : Spot) : Option Entry :=
  if s = [] then some .directory else t.entries.lookup s

def put (t : FileTree) (s : Spot) (e : Entry) : FileTree :=
  { t with entries := (s, e) :: t.entries.filter (·.1 ≠ s) }

def erase (t : FileTree) (s : Spot) : FileTree :=
  { t with entries := t.entries.filter (·.1 ≠ s) }

def isDirectoryAt (t : FileTree) (s : Spot) : Bool :=
  match t.get? s with
  | some .directory => true
  | _ => false

def content? (t : FileTree) (s : Spot) : Option ByteArray :=
  match t.get? s with
  | some (.file c) => some c
  | _ => none

/-- The names of the entries in a directory. -/
def names (t : FileTree) (s : Spot) : List String :=
  t.entries.filterMap fun e =>
    match e.1.reverse with
    | name :: above => if above.reverse = s then some name else none
    | [] => none

/-- Follows names from a directory; every name but the last has to lead to a directory. -/
def follow? (t : FileTree) (s : Spot) : List String → Option Spot
  | [] => some s
  | name :: rest => if t.isDirectoryAt s then t.follow? (s.step name) rest else none

/-- Whether a path can only mean a directory: it ends in a slash or a dot. -/
def meansDirectory (path : String) : Bool :=
  match (path.toList.splitOn '/').getLast? with
  | some s => s = [] || s = ['.'] || s = ['.', '.']
  | none => false

/-- Where a path leads, whether or not something is there. -/
def spot? (t : FileTree) (path : String) : Option Spot :=
  if path = "" then none else t.follow? (Path.start t.home path) (Path.segments path)

/-- The entry at a path. -/
def entry? (t : FileTree) (path : String) : Option Entry :=
  match (t.spot? path).bind t.get? with
  | some .directory => some .directory
  | some (.file c) => if meansDirectory path then none else some (.file c)
  | none => none

def isFile (t : FileTree) (path : String) : Bool :=
  match t.entry? path with
  | some (.file _) => true
  | _ => false

def isDirectory (t : FileTree) (path : String) : Bool :=
  match t.entry? path with
  | some .directory => true
  | _ => false

/-- The bytes of the file at a path. -/
def read? (t : FileTree) (path : String) : Option ByteArray :=
  match t.entry? path with
  | some (.file c) => some c
  | _ => none

/-- The text of the file at a path, if its bytes are one. -/
def readText? (t : FileTree) (path : String) : Option String :=
  (t.read? path).bind String.fromUTF8?

/-- Whether following names from a spot ends at an entry that is not there. -/
def isMissingAlong (t : FileTree) (s : Spot) : List String → Bool
  | [] => (t.get? s).isNone
  | name :: rest =>
    match t.get? s with
    | none => true
    | some (.file _) => false
    | some .directory => t.isMissingAlong (s.step name) rest

/-- Whether nothing is at a path. What is below a file is not missing; it cannot be looked up. -/
def isMissing (t : FileTree) (path : String) : Bool :=
  path = "" || t.isMissingAlong (Path.start t.home path) (Path.segments path)

/-- Makes the directories along some names; stops at a file. -/
def makeAlong (t : FileTree) (s : Spot) : List String → FileTree × Bool
  | [] => (t, true)
  | name :: rest =>
    let next := s.step name
    match t.get? next with
    | some .directory => t.makeAlong next rest
    | some (.file _) => (t, false)
    | none => (t.put next .directory).makeAlong next rest

/-- Makes a directory and those above it; tells whether it is there. Nothing is made below a working
directory that is gone. -/
def makeDirectory (t : FileTree) (path : String) : FileTree × Bool :=
  let start := Path.start t.home path
  if t.isDirectoryAt start then t.makeAlong start (Path.segments path) else (t, false)

/-- Writes a file into a directory that is there; tells whether it did. -/
def write (t : FileTree) (path : String) (content : ByteArray) : FileTree × Bool :=
  match t.spot? path with
  | none => (t, false)
  | some s =>
    if meansDirectory path || s = [] || !t.isDirectoryAt s.dropLast || t.isDirectoryAt s then
      (t, false)
    else (t.put s (.file content), true)

def remove (t : FileTree) (path : String) : FileTree × Bool :=
  if t.isFile path then
    match t.spot? path with
    | some s => (t.erase s, true)
    | none => (t, false)
  else (t, false)

/-- The files of a tree that an earlier one has not, or has with other content. -/
def changed (t earlier : FileTree) : List (Spot × ByteArray) :=
  t.entries.filterMap fun e =>
    match e.2 with
    | .file c => if (earlier.content? e.1).map (·.data) = some c.data then none else some (e.1, c)
    | .directory => none

theorem lookup_filter_ne {s s' : Spot} (l : List (Spot × Entry)) (h : s' ≠ s) :
    (l.filter (·.1 ≠ s)).lookup s' = l.lookup s' := by
  induction l with
  | nil => rfl
  | cons e es ih =>
    by_cases he : e.1 = s
    · have hs : (s' == e.1) = false := by simp [he, h]
      rw [List.filter_cons_of_neg (by simp [he]), ih, List.lookup_cons, hs]
    · rw [List.filter_cons_of_pos (by simp [he]), List.lookup_cons, List.lookup_cons, ih]

theorem get?_put_self (t : FileTree) {s : Spot} (e : Entry) (h : s ≠ []) :
    (t.put s e).get? s = some e := by
  simp [get?, put, h]

theorem get?_put_of_ne (t : FileTree) {s s' : Spot} (e : Entry) (h : s' ≠ s) :
    (t.put s e).get? s' = t.get? s' := by
  have hb : (s' == s) = false := by simp [h]
  unfold get? put
  rw [List.lookup_cons, hb, lookup_filter_ne _ h]

end FileTree

end NodeAtlas
