import GoComplexity.Text.Utf8
import GoComplexity.Workspace.Path

/-!
# File trees

A file tree lists files with their contents, and directories. Every directory above a listed one is
there as well. Following a path needs a directory for every step, so a step up from a place that
does not exist leads nowhere.
-/

namespace GoComplexity

/-- A place in a file tree: the names from the root down to it. -/
abbrev Place := List String

/-- Why a file cannot be read as text. -/
inductive ReadError where
  | missing
  | notDirectory
  | isDirectory
  | notText
deriving DecidableEq

def ReadError.message : ReadError → String
  | .missing => "No such file or directory (os error 2)"
  | .notDirectory => "Not a directory (os error 20)"
  | .isDirectory => "Is a directory (os error 21)"
  | .notText => "stream did not contain valid UTF-8"

structure FileTree where
  files : List (Place × ByteArray)
  /-- Directories that need not hold a file. -/
  dirs : List Place

namespace FileTree

/-- What follows `dir` in a place, if the place is `dir` or below it. -/
def below? : (dir place : Place) → Option Place
  | [], place => some place
  | _ :: _, [] => none
  | d :: dir, p :: place => if d = p then below? dir place else none

/-- What follows `dir` in a place that is below it. -/
def under? (dir place : Place) : Option Place :=
  match below? dir place with
  | some (name :: names) => some (name :: names)
  | _ => none

def file? (t : FileTree) (place : Place) : Option ByteArray :=
  (t.files.find? fun f ↦ f.1 == place).map Prod.snd

def isFile (t : FileTree) (place : Place) : Bool := t.files.any fun f ↦ f.1 == place

def isDir (t : FileTree) (place : Place) : Bool :=
  place.isEmpty || t.dirs.any (fun d ↦ (below? place d).isSome) ||
    t.files.any (fun f ↦ (under? place f.1).isSome)

/-- The place that one segment leads to from a directory; the root is above itself. -/
def step (t : FileTree) (here : Place) (s : Segment) : Except ReadError Place :=
  if t.isDir here then
    match s with
    | .up => .ok here.dropLast
    | .name text => .ok (here ++ [text])
  else if t.isFile here then .error .notDirectory
  else .error .missing

/-- The place that a path leads to. The place itself need not exist. -/
def locate (t : FileTree) (p : Path) : Except ReadError Place := p.segments.foldlM t.step []

/-- The place of a path at which there is a file. -/
def filePlace? (t : FileTree) (p : Path) : Option Place :=
  (t.locate p).toOption.filter t.isFile

/-- The place of a path at which there is a directory. -/
def dirPlace? (t : FileTree) (p : Path) : Option Place :=
  (t.locate p).toOption.filter t.isDir

def read (t : FileTree) (p : Path) : Except ReadError ByteArray := do
  let place ← t.locate p
  match t.file? place with
  | some bytes => return bytes
  | none => throw (if t.isDir place then .isDirectory else .missing)

def readText (t : FileTree) (p : Path) : Except ReadError String := do
  match Text.decode? (← t.read p) with
  | some text => return text
  | none => throw .notText

/-- The same place without steps up, if there is something at it. -/
def canonical? (t : FileTree) (p : Path) : Option Path :=
  ((t.filePlace? p).or (t.dirPlace? p)).map Path.ofNames

/-- The files below a directory, each with the names that lead to it from there. -/
def filesBelow (t : FileTree) (dir : Place) : List Place :=
  t.files.filterMap fun f ↦ under? dir f.1

end FileTree

end GoComplexity
