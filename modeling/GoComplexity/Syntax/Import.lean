import GoComplexity.Syntax.Position
import GoComplexity.Text.Integer
import GoComplexity.Text.Split

/-!
# Imports and the names they go by

A file refers to an imported package by the name that it gives it, or else by the name guessed from the
last segment of the import path.
-/

namespace GoComplexity.Syntax

structure Import where
  path : String
  /-- The explicit name, also `.` and `_`. -/
  givenName : Option String
  pos : Position
deriving DecidableEq

namespace ImportPath

open Text

/-- A segment such as `v2`. -/
def isMajorVersion : List Char → Bool
  | 'v' :: digits => !digits.isEmpty && digits.all isDigit
  | _ => false

/-- The segments of a path that are not empty. -/
def segments (path : List Char) : List (List Char) := (split '/' path).filter fun s ↦ !s.isEmpty

/-- The segment that names the package: the last one, or the one before a major version. -/
def nameSegment (path : List Char) : List Char :=
  let all := segments path
  let kept := match all.getLast? with
    | some last => if 1 < all.length ∧ isMajorVersion last then all.dropLast else all
    | none => all
  kept.getLast?.getD path

/-- The text without a version at its end, such as `.v3`. -/
def dropVersion (name : List Char) : List Char :=
  let digits := name.reverse.takeWhile isDigit
  match digits, name.reverse.dropWhile isDigit with
  | _ :: _, 'v' :: '.' :: stem => stem.reverse
  | _, _ => name

/-- Hyphens and dots cannot stand in an identifier. -/
def identifierChar (c : Char) : Char := if c = '-' ∨ c = '.' then '_' else c

/-- The package name guessed from an import path. -/
def packageChars (path : List Char) : List Char :=
  let name := dropVersion (nameSegment path)
  ((after? "go-".toList name).getD name).map identifierChar

def packageName (path : String) : String := String.ofList (packageChars path.toList)

/-- Paths of the standard library have no dot. -/
def isStandard (path : String) : Bool := !path.toList.contains '.'

end ImportPath

/-- The identifier that refers to the import; dot and blank imports have none. -/
def Import.localName (i : Import) : Option String :=
  match i.givenName with
  | none => some (ImportPath.packageName i.path)
  | some name => if name = "." ∨ name = "_" then none else some name

end GoComplexity.Syntax
