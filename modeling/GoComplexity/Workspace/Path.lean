import GoComplexity.Text.Split

/-!
# Paths

Paths lead from the root through names and steps up. A step up stays where it was written, since it
is taken from the place reached so far and that place may not exist. Repeated separators and steps
to the same place are not kept, so two texts that differ only in them are one path.
-/

namespace GoComplexity

inductive Segment where
  /-- A step to the directory above. -/
  | up
  | name (text : String)
deriving DecidableEq

namespace Segment

def text : Segment → String
  | .up => ".."
  | .name text => text

/-- The segment of one part of a path text; parts that stay where they are have none. -/
def ofPart? (part : List Char) : Option Segment :=
  if part = [] ∨ part = ['.'] then none
  else if part = ['.', '.'] then some .up
  else some (.name (String.ofList part))

/-- Steps up come before names, and names go by code points. -/
def lt : Segment → Segment → Bool
  | .up, .name _ => true
  | .name a, .name b => a < b
  | _, .up => false

end Segment

/-- A path from the root. -/
structure Path where
  segments : List Segment
deriving DecidableEq

namespace Path

/-- The segments of a path text. -/
def parts (text : String) : List Segment := (Text.split '/' text.toList).filterMap Segment.ofPart?

def isAbsolute (text : String) : Bool := text.toList.head? == some '/'

def ofNames (names : List String) : Path := ⟨names.map .name⟩

def append (p : Path) (segments : List Segment) : Path := ⟨p.segments ++ segments⟩

/-- Where a path text leads from `p`; a text that starts with a separator leads from the root. -/
def resolve (p : Path) (text : String) : Path :=
  if isAbsolute text then ⟨parts text⟩ else p.append (parts text)

/-- The directory of a file: the path without its last segment. -/
def parent (p : Path) : Path := ⟨p.segments.dropLast⟩

/-- The last segment, if it is a name. -/
def fileName? (p : Path) : Option String :=
  match p.segments.getLast? with
  | some (.name text) => some text
  | _ => none

def joined (segments : List Segment) : String := Text.join "/" (segments.map Segment.text)

def display (p : Path) : String := "/" ++ joined p.segments

/-- What follows `base` in the segments, if they start with it. -/
def below? : (base segments : List Segment) → Option (List Segment)
  | [], segments => some segments
  | _ :: _, [] => none
  | b :: base, s :: segments => if b = s then below? base segments else none

/-- The text of the path as seen from `base`; paths that do not start with `base` are shown whole. -/
def relativeTo (base p : Path) : String :=
  match below? base.segments p.segments with
  | some segments => joined segments
  | none => p.display

def segmentsLt : List Segment → List Segment → Bool
  | _, [] => false
  | [], _ :: _ => true
  | a :: as, b :: bs => a.lt b || (a == b && segmentsLt as bs)

/-- Paths go by their first different segment; a path comes before those below it. -/
def lt (p q : Path) : Bool := segmentsLt p.segments q.segments

def le (p q : Path) : Bool := !q.lt p

/-- Every way to cut the path in two, from the whole path up to the root. -/
def cuts (p : Path) : List (Path × List Segment) :=
  (List.range (p.segments.length + 1)).reverse.map fun k ↦
    (⟨p.segments.take k⟩, p.segments.drop k)

end Path

end GoComplexity
