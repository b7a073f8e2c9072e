import GoComplexity.Command.Run

/-!
# The program

Takes a snapshot of what the command line names, runs the command line in it and writes the reply.
-/

namespace GoComplexity.Snapshot

/-- Adds a file with its contents. -/
def addFile (t : FileTree) (place : Place) (path : String) : IO FileTree := do
  return { t with files := (place, ← IO.FS.readBinFile path) :: t.files }

/-- Adds a file, if there is one at the path. -/
def addFile? (t : FileTree) (place : Place) (path : String) : IO FileTree := do
  let here := (← IO.currentDir) / path
  if t.isFile place || !(← here.pathExists) || (← here.isDir) then return t
  addFile t place path

/-- Adds the source files of a directory, and those of the directories below it if asked for. -/
partial def addSources (t : FileTree) (place : Place) (path : String) (deep : Bool) :
    IO FileTree := do
  let mut t := t
  for entry in ← ((← IO.currentDir) / path).readDir do
    let name := entry.fileName
    let inner := place ++ [name]
    match (← entry.path.symlinkMetadata).type with
    | .file => if Selection.hasEnding name ".go" && !t.isFile inner then
        t ← addFile t inner (path ++ "/" ++ name)
    | .dir => if deep && !Selection.ignoresDir name then
        t ← addSources t inner (path ++ "/" ++ name) deep
    | _ => pure ()
  return t

/-- Adds what leads to a path: the directories on the way with their module files, or the file
itself. -/
def addWay (t : FileTree) (p : Path) : IO FileTree := do
  let mut t := t
  for (way, _) in p.cuts.reverse do
    if let .ok place := t.locate way then
      if ← ((← IO.currentDir) / way.display).isDir then
        t := { t with dirs := place :: t.dirs }
        for name in "go.mod" :: Config.fileNames do
          t ← addFile? t (place ++ [name]) (way.display ++ "/" ++ name)
      else t ← addFile? t place way.display
  return t

/-- The part of the file system that a run with these options looks at. -/
def take (base : Path) (o : Command.Options) : IO FileTree := do
  let mut t : FileTree ← addWay ⟨[], []⟩ base
  for name in o.config.toList do
    t ← addWay t (base.resolve name)
  for text in o.patterns do
    let pattern := FilePattern.ofText text
    let root := base.resolve pattern.root
    t ← addWay t root
    if let some place := t.dirPlace? root then
      t ← addSources t place root.display pattern.recursive
  return t

end GoComplexity.Snapshot

namespace GoComplexity.Command

/-- Runs a command line where the program stands. -/
def execute (args : List String) : IO UInt32 := do
  let base := Path.resolve ⟨[]⟩ (← IO.currentDir).toString
  let tree ← match Options.read args with
    | .ok o => Snapshot.take base o
    | .error _ => pure ⟨[], []⟩
  let stdout ← IO.getStdout
  let color := Report.wantsColor (← IO.getEnv "CLICOLOR_FORCE") (← IO.getEnv "NO_COLOR")
    (← IO.getEnv "CLICOLOR") (← stdout.isTty)
  let reply := run ⟨tree, base⟩ color args
  stdout.putStr reply.out
  (← IO.getStderr).putStr reply.err
  return reply.exitCode.toUInt32

end GoComplexity.Command

def main (args : List String) : IO UInt32 := GoComplexity.Command.execute args
