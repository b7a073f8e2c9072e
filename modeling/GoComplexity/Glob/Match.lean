import GoComplexity.Glob.Pattern

/-!
# Matching paths

Patterns are matched against the bytes of a path. A piece maps what is left of the path to the list of
what can be left after it, so a pattern matches if nothing can be left in the end. A class matches one
byte: a range between characters of several bytes goes from the last byte of the first one to the
first byte of the last one, and their other bytes stand for themselves.
-/

namespace GoComplexity.Glob

abbrev Bytes := List UInt8

def bytesOf (s : String) : Bytes := s.toUTF8.toList

def slash : UInt8 := 0x2F

/-- All ends of a byte run, the whole run first. -/
def ends : Bytes → List Bytes
  | [] => [[]]
  | b :: bs => (b :: bs) :: ends bs

/-- What can follow a slash in a byte run. -/
def afterSlashes : Bytes → List Bytes
  | [] => []
  | b :: bs => if b = slash then bs :: afterSlashes bs else afterSlashes bs

/-- What follows `lead`, if the bytes start with it. -/
def afterBytes : (lead bs : Bytes) → List Bytes
  | [], bs => [bs]
  | _ :: _, [] => []
  | l :: lead, b :: bs => if l = b then afterBytes lead bs else []

/-- The ranges of bytes that a range of characters stands for. -/
def byteRanges (r : Char × Char) : List (UInt8 × UInt8) :=
  let low := bytesOf r.1.toString
  let high := bytesOf r.2.toString
  if r.1 = r.2 then low.map fun b ↦ (b, b)
  else
    low.dropLast.map (fun b ↦ (b, b)) ++ [(low.getLastD 0, high.headD 0)] ++
      (high.drop 1).map fun b ↦ (b, b)

/-- Whether a byte belongs to a class. -/
def inClass (negated : Bool) (ranges : List (Char × Char)) (b : UInt8) : Bool :=
  (ranges.flatMap byteRanges).any (fun r ↦ r.1 ≤ b && b ≤ r.2) != negated

mutual

/-- Whether a piece stands for nothing: a group of which no branch is left. -/
def Piece.vanishes : Piece → Bool
  | .group branches => branchesVanish branches
  | _ => false

/-- Whether all pieces of a branch stand for nothing. -/
def branchVanishes : List Piece → Bool
  | [] => true
  | p :: ps => p.vanishes && branchVanishes ps

def branchesVanish : List (List Piece) → Bool
  | [] => true
  | b :: bs => branchVanishes b && branchesVanish bs

end

mutual

/-- What can be left after a piece. -/
def Piece.rests : Piece → Bytes → List Bytes
  | .literal c, bs => afterBytes (bytesOf c.toString) bs
  | .any, bs => (bs.tail?).toList
  | .star, bs => ends bs
  | .leading, bs => bs :: afterSlashes bs
  | .trailing, bs => (afterBytes [slash] bs).flatMap ends
  | .between, bs => (afterBytes [slash] bs).flatMap fun rest ↦ rest :: afterSlashes rest
  | .oneOf negated ranges, bs =>
    match bs with
    | [] => []
    | b :: rest => if inClass negated ranges b then [rest] else []
  | .group branches, bs => if branchesVanish branches then [bs] else branchesRests branches bs

/-- What can be left after one of some branches; a branch that stands for nothing is no branch. -/
def branchesRests : List (List Piece) → Bytes → List Bytes
  | [], _ => []
  | b :: bs, left => (if branchVanishes b then [] else branchRests b [left]) ++ branchesRests bs left

/-- What can be left after pieces one after the other. -/
def branchRests : List Piece → List Bytes → List Bytes
  | [], lefts => lefts
  | p :: ps, lefts => branchRests ps (lefts.flatMap p.rests).eraseDups

end

/-- The characters of pieces that are all literal. -/
def literals? : List Piece → Option (List Char)
  | [] => some []
  | .literal c :: ps => (literals? ps).map (c :: ·)
  | _ :: _ => none

/-- Whether the last piece is a dot. -/
def endsInDot (ps : List Piece) : Bool :=
  match ps.getLast? with
  | some (.literal c) => c == '.'
  | _ => false

/-- Whether a pattern that ends in a dot looks for a name or for an extension. A path that ends in a
dot has neither, so such a pattern matches nothing. -/
def looksForName (ps : List Piece) : Bool :=
  let (led, body) := match ps with
    | .leading :: body => (true, body)
    | body => (false, body)
  match literals? body, body with
  | some cs, _ => led && !cs.contains '/'
  | none, .star :: rest => match literals? rest with
    | some cs => cs == ['.']
    | none => true
  | none, _ => true

/-- Whether a path matches. A pattern of `**` alone matches everything. -/
def Pattern.covers (p : Pattern) (path : String) : Bool :=
  match p.pieces with
  | [.leading] => true
  | ps => !(endsInDot ps && looksForName ps) && (branchRests ps [bytesOf path]).any List.isEmpty

/-- A list of patterns; it covers what one of them covers. -/
abbrev PatternSet := List Pattern

def PatternSet.covers (set : PatternSet) (path : String) : Bool := set.any (·.covers path)

/-- Reads patterns up to the first one that is refused. -/
def PatternSet.parse (texts : List String) : Except PatternError PatternSet :=
  texts.mapM Pattern.parse

end GoComplexity.Glob
