import NodeAtlas.Program

/-!
The command line. A run works on the files that it can look at as they are when it begins; its changes
are carried out at its end.
-/

namespace NodeAtlas.Shell

def pathOf (s : Spot) : String := "/" ++ "/".intercalate s

/-- The entry at a spot, unless it cannot be read. A link counts as what it leads to. -/
def entryAt? (s : Spot) : IO (Option (Spot × Entry)) := do
  try
    if ← (← IO.FS.realPath (pathOf s)).isDir then return some (s, .directory)
    else return some (s, .file (← IO.FS.readBinFile (pathOf s)))
  catch _ => return none

/-- The spots in a directory, without links to directories. -/
def spotsIn (s : Spot) : IO (List Spot) := do
  try
    let found ← (← IO.FS.realPath (pathOf s)).readDir
    let kept ← found.toList.filterM fun e => do
      return (← e.path.symlinkMetadata).type != .symlink || !(← e.path.isDir)
    return kept.map fun e => s ++ [e.fileName]
  catch _ => return []

/-- What is at a spot and below it. -/
partial def entriesFrom (s : Spot) : IO (List (Spot × Entry)) := do
  match ← entryAt? s with
  | some (_, .directory) =>
    let below ← (← spotsIn s).mapM entriesFrom
    return (s, .directory) :: below.flatten
  | found => return found.toList

/-- A directory and what the ignore rules in it are read from. -/
def levelSpots (s : Spot) : List Spot :=
  [[], [".ignore"], [".gitignore"], [".git"], [".git", "info", "exclude"]].map (s ++ ·)

/-- The tree of what is at some spots and below them, of what is at some others, and of the directories
on the way to all of these and to the working directory. -/
def treeOf (home : Spot) (roots others : List Spot) : IO FileTree := do
  let whole := (roots.filter fun s => !roots.any fun r => r != s && r.isPrefixOf s).eraseDups
  let above := (home :: roots ++ others).flatMap fun s =>
    (List.range s.length).flatMap fun n => levelSpots (s.take n)
  let single := (home :: others ++ above).eraseDups.filter fun s => !whole.any (·.isPrefixOf s)
  let below ← whole.mapM entriesFrom
  return { entries := below.flatten ++ (← single.filterMapM entryAt?), home }

/-- The part of the file system that a run can look at. -/
def treeFor (o : Options) : IO FileTree := do
  let home := Path.segments (← IO.currentDir).toString
  let config := Path.place home (o.config.getD Program.defaultSettingsPath)
  let s := match Program.readSettings (← treeOf home [] [config]) o.config with
    | .ok (s, _) => s
    | .error _ => {}
  let output := Path.place home (o.output.getD s.output)
  let paths := if o.paths = [] then [s.definitions] else o.paths
  treeOf home (paths.map (Path.place home))
    (config :: o.parse.toList.map (Path.place home) ++ output :: (← spotsIn output))

/-- Makes the directories and writes the files that a tree has and an earlier one has not. -/
def carryOut (t earlier : FileTree) : IO Unit := do
  for (s, _) in t.entries.reverse do
    if t.isDirectoryAt s && !earlier.isDirectoryAt s then IO.FS.createDirAll (pathOf s)
  for (s, content) in (t.changed earlier).reverse do
    IO.FS.writeBinFile (pathOf s) content

def printNote (start : Nat) : Program.Note → IO Unit
  | .text s => IO.eprint s
  | .elapsed => do IO.eprint s!"{(← IO.monoMsNow) - start}ms"

/-- Carries out a run and gives its exit code. -/
def execute (o : Options) : IO UInt32 := do
  let start ← IO.monoMsNow
  let t ← treeFor o
  let (result, world) := Program.runIn o t
  carryOut world.tree t
  world.stderr.forM (printNote start)
  IO.print world.stdout
  match result with
  | .ok code => return code.toUInt32
  | .error failure =>
    IO.eprintln ("error: " ++ failure.message)
    return 3

end NodeAtlas.Shell

def main (arguments : List String) : IO UInt32 := do
  match NodeAtlas.Options.ofArguments arguments with
  | .ok o => NodeAtlas.Shell.execute o
  | .error .displayHelp =>
    IO.print (NodeAtlas.Options.grammar.summary "node-atlas")
    return 0
  | .error .displayVersion =>
    IO.println "node-atlas 0.1.0"
    return 0
  | .error e =>
    IO.eprintln ("error: " ++ e.message)
    return 2
