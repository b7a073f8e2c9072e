import GoComplexity.Glob.Match
import GoComplexity.Workspace.Basic

/-!
# Selecting files

A pattern names a file, a directory, or a directory with everything below it if it ends in `...`. A
named file is always taken. Of a directory those files are taken that hold source text, are not
ignored on the way down from the directory, and are not excluded.
-/

namespace GoComplexity

/-- Which files of a directory a run takes. -/
structure Selection where
  tests : Bool
  /-- Patterns for the files to leave out, by their path from the working directory. -/
  excluded : Glob.PatternSet

namespace Selection

def startsHidden (name : String) : Bool :=
  match name.toList.head? with
  | some c => c == '.' || c == '_'
  | none => false

/-- Directories that are not entered. -/
def ignoresDir (name : String) : Bool :=
  startsHidden name || name == "testdata" || name == "vendor"

def hasEnding (name ending : String) : Bool := (Text.before? ending.toList name.toList).isSome

def takesName (s : Selection) (name : String) : Bool :=
  !startsHidden name && hasEnding name ".go" && (s.tests || !hasEnding name "_test.go")

/-- Whether the file that the names lead to is taken, exclusions aside. -/
def takes (s : Selection) (names : Place) : Bool :=
  (names.dropLast.all fun name ↦ !ignoresDir name) && names.getLast?.any s.takesName

end Selection

/-- A pattern of the command line. -/
structure FilePattern where
  root : String
  recursive : Bool
deriving DecidableEq

namespace FilePattern

def dropSlashes (cs : List Char) : List Char := (cs.reverse.dropWhile (· == '/')).reverse

def ofText (text : String) : FilePattern :=
  match Text.before? "...".toList text.toList with
  | none => ⟨text, false⟩
  | some lead =>
    let root := dropSlashes lead
    ⟨if root.isEmpty then "." else String.ofList root, true⟩

end FilePattern

namespace Workspace

/-- The files of a directory that a run takes, by path. -/
def filesIn (ws : Workspace) (s : Selection) (root : Path) (dir : Place) (recursive : Bool) :
    List Path :=
  let names := (ws.tree.filesBelow dir).filter fun names ↦
    (recursive || names.length == 1) && s.takes names
  (names.map fun names ↦ root.append (names.map .name)).filter fun p ↦
    !s.excluded.covers (ws.relative p)

/-- The files that a pattern names, or nothing if there is nothing at its path. -/
def expand? (ws : Workspace) (s : Selection) (text : String) : Option (List Path) :=
  let pattern := FilePattern.ofText text
  let root := ws.resolve pattern.root
  if (ws.tree.filePlace? root).isSome then some [root]
  else (ws.tree.dirPlace? root).map fun dir ↦ ws.filesIn s root dir pattern.recursive

end Workspace

end GoComplexity
