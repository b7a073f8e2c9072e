import GoComplexity.Lint.Run
import GoComplexity.Source.File
import GoComplexity.Workspace.Module
import GoComplexity.Workspace.Selection

/-!
# Loading packages

All patterns are expanded before a file is read. Files are read in path order, each once, and the
first one that cannot be read ends the load. Files with the same directory and package name form a
package; packages are ordered by directory and name.
-/

namespace GoComplexity

open Syntax

inductive LoadError where
  /-- There is nothing at the path of a pattern. -/
  | notFound (pattern : String)
  | unreadable (file : String) (cause : ReadError)
  | source (file : String) (cause : Source.SourceError)
deriving DecidableEq

namespace LoadError

def message : LoadError → String
  | .notFound pattern => pattern ++ ": no such file or directory"
  | .unreadable file cause => file ++ ": " ++ cause.message
  | .source file cause => file ++ ": " ++ cause.message

/-- The error behind a failed read. -/
def cause? : LoadError → Option String
  | .unreadable _ cause => some cause.message
  | _ => none

end LoadError

/-- A source file with the path it was read from. -/
structure Loaded where
  path : Path
  file : SourceFile

namespace Loaded

/-- What the files of one package have in common. -/
def key (l : Loaded) : Path × String := (l.path.parent, l.file.package)

end Loaded

namespace Package

/-- The order of packages: by directory, then by name. -/
def keyLe (a b : Path × String) : Bool := if a.1 = b.1 then !(b.2 < a.2) else a.1.le b.1

end Package

/-- Paths in order, each once. -/
def Path.inOrder (paths : List Path) : List Path := (paths.mergeSort le).eraseReps

namespace Workspace

/-- The files that a pattern names. -/
def expand (ws : Workspace) (s : Selection) (pattern : String) : Except LoadError (List Path) :=
  match ws.expand? s pattern with
  | some paths => .ok paths
  | none => .error (.notFound pattern)

/-- The files that the patterns name, in path order and each once. -/
def expandAll (ws : Workspace) (s : Selection) (patterns : List String) :
    Except LoadError (List Path) := do
  let paths ← patterns.mapM (ws.expand s)
  return Path.inOrder paths.flatten

def loadFile (ws : Workspace) (path : Path) : Except LoadError Loaded :=
  let file := ws.relative path
  match ws.tree.read path with
  | .error cause => .error (.unreadable file cause)
  | .ok bytes =>
    match Source.readSource file bytes with
    | .error cause => .error (.source file cause)
    | .ok source => .ok ⟨path, source⟩

/-- Groups files into packages. -/
def packages (ws : Workspace) (files : List Loaded) : List Package :=
  let keys := ((files.map Loaded.key).mergeSort Package.keyLe).eraseReps
  keys.map fun key ↦
    { dir := key.1
      name := key.2
      path := ws.importPath key.1
      files := (files.filter fun l ↦ l.key == key).map Loaded.file }

def load (ws : Workspace) (s : Selection) (patterns : List String) :
    Except LoadError (List Package) := do
  let files ← (← ws.expandAll s patterns).mapM ws.loadFile
  return ws.packages files

end Workspace

end GoComplexity
