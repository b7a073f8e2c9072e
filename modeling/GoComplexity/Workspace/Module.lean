import GoComplexity.Text.Blank
import GoComplexity.Workspace.Basic

/-!
# Modules and import paths

The import path of a directory is the module path of the nearest `go.mod` at or above it, followed by
the names that lead from there to the directory. A file without a module directive is passed over.
Where no module is found, the directory's own name is its import path.
-/

namespace GoComplexity

namespace ModuleFile

/-- The texts that start at a line start, the whole text first. -/
def lineStarts : List Char → List (List Char)
  | [] => [[]]
  | c :: cs => (c :: cs) :: if c = '\n' then lineStarts cs else (lineStarts cs).tail

/-- The module path of a directive at the start of a text. The word is followed by blanks, and one
quote before the path is skipped. -/
def directive? (cs : List Char) : Option (List Char) := do
  let rest ← Text.after? "module".toList (Text.trimStart cs)
  if (rest.takeWhile Text.isBlank).isEmpty then none
  else
    let written := match Text.trimStart rest with
      | '\x22' :: quoted => quoted
      | plain => plain
    let path := written.takeWhile fun c ↦ !(Text.isBlank c || c == '\x22')
    if path.isEmpty then none else some path

/-- The module path of the first directive. -/
def modulePath? (text : String) : Option String :=
  ((lineStarts text.toList).findSome? directive?).map String.ofList

end ModuleFile

namespace Workspace

/-- The module path that the `go.mod` of a directory declares. -/
def moduleAt? (ws : Workspace) (dir : Path) : Option String :=
  (ws.tree.readText (dir.append [.name "go.mod"])).toOption.bind ModuleFile.modulePath?

/-- The import path of the package in a directory. -/
def importPath (ws : Workspace) (dir : Path) : String :=
  let dir := (ws.tree.canonical? dir).getD dir
  match dir.cuts.findSome? fun (root, rest) ↦ (ws.moduleAt? root).map fun m ↦ (m, rest) with
  | some (modulePath, rest) => Text.join "/" (modulePath :: rest.map Segment.text)
  | none => dir.fileName?.getD "main"

end Workspace

end GoComplexity
