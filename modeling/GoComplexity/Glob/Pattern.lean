import GoComplexity.Text.Quoted

/-!
# Path patterns

A pattern is a list of pieces. `*` and `?` match slashes too; `**` between slashes or at an end of the
pattern stands for whole directories, and elsewhere for two stars. A backslash takes away the meaning
of the next character. Groups in braces may be nested.
-/

namespace GoComplexity.Glob

inductive Piece where
  | literal (c : Char)
  /-- `?` -/
  | any
  /-- `*` -/
  | star
  /-- `**/` at the start: any directories, or none. -/
  | leading
  /-- `/**` at the end: everything below a directory. -/
  | trailing
  /-- `/**/`: any directories between two. -/
  | between
  /-- A class in brackets. -/
  | oneOf (negated : Bool) (ranges : List (Char × Char))
  /-- A group in braces. -/
  | group (branches : List (List Piece))

/-- Why a pattern cannot be read. -/
inductive Fault where
  | unclosedClass
  | invalidRange (low high : Char)
  | unopenedGroup
  | unclosedGroup
  | danglingEscape
deriving DecidableEq

def Fault.message : Fault → String
  | .unclosedClass => "unclosed character class; missing \x27]\x27"
  | .invalidRange low high => "invalid range; \x27" ++ low.toString ++ "\x27 > \x27" ++ high.toString ++ "\x27"
  | .unopenedGroup => "unopened alternate group; missing \x27\x7b\x27 (maybe escape \x27\x7d\x27 with \x27[\x7d]\x27?)"
  | .unclosedGroup => "unclosed alternate group; missing \x27\x7d\x27 (maybe escape \x27\x7b\x27 with \x27[\x7b]\x27?)"
  | .danglingEscape => "dangling \x27\\\x27"

/-- A refused pattern. -/
structure PatternError where
  pattern : String
  fault : Fault
deriving DecidableEq

/-- What is wrong with the pattern. -/
def PatternError.cause (e : PatternError) : String :=
  "error parsing glob \x27" ++ e.pattern ++ "\x27: " ++ e.fault.message

def PatternError.message (e : PatternError) : String :=
  "invalid excluded_paths pattern " ++ Text.quoted e.pattern ++ ": " ++ e.cause

/-! ### Classes -/

/-- The class read so far. -/
structure ClassRead where
  /-- The latest range first. -/
  ranges : List (Char × Char)
  first : Bool
  /-- Whether a hyphen waits for the end of the latest range. -/
  inRange : Bool

/-- Moves the end of the latest range to a character. -/
def ClassRead.extend (r : ClassRead) (c : Char) : Except Fault ClassRead :=
  match r.ranges with
  | [] => .ok ⟨[(c, c)], false, false⟩
  | (low, _) :: rest =>
    if c < low then .error (.invalidRange low c) else .ok ⟨(low, c) :: rest, false, false⟩

/-- Takes one character into the class. -/
def ClassRead.add (r : ClassRead) (c : Char) : Except Fault ClassRead :=
  if r.inRange then r.extend c
  else if c = '-' && !r.first then .ok { r with inRange := true }
  else .ok ⟨(c, c) :: r.ranges, false, false⟩

/-- The ranges in reading order; a hyphen at the end stands for itself. -/
def ClassRead.done (r : ClassRead) : List (Char × Char) :=
  (if r.inRange then ('-', '-') :: r.ranges else r.ranges).reverse

/-- Reads a class to its closing bracket, which stands for itself in the first place. -/
def readClass (r : ClassRead) : List Char → Except Fault (List (Char × Char) × List Char)
  | [] => .error .unclosedClass
  | c :: cs =>
    if c = ']' && !r.first then .ok (r.done, cs)
    else match r.add c with
      | .error e => .error e
      | .ok r => readClass r cs

theorem length_of_readClass {r : ClassRead} {cs rest : List Char} {ranges : List (Char × Char)}
    (h : readClass r cs = .ok (ranges, rest)) : rest.length < cs.length := by
  induction cs generalizing r with
  | nil => simp [readClass] at h
  | cons c cs ih =>
    unfold readClass at h
    split at h
    · simp_all
    · split at h
      · contradiction
      · simpa using Nat.lt_succ_of_lt (ih h)

/-- Whether a class is negated, and what follows the mark of negation. -/
def negation : List Char → Bool × List Char
  | '!' :: cs => (true, cs)
  | '^' :: cs => (true, cs)
  | cs => (false, cs)

theorem length_negation (cs : List Char) : (negation cs).2.length ≤ cs.length := by
  unfold negation
  split <;> simp

/-! ### Patterns -/

/-- An open group: the branch around it and the branches before the current one, all reversed. -/
structure OpenGroup where
  around : List Piece
  earlier : List (List Piece)

/-- The pieces read so far. -/
structure Read where
  /-- The current branch, its latest piece first. -/
  branch : List Piece
  groups : List OpenGroup

namespace Read

def push (r : Read) (p : Piece) : Read := { r with branch := p :: r.branch }

def inGroup (r : Read) : Bool := !r.groups.isEmpty

def openGroup (r : Read) : Read := ⟨[], ⟨r.branch, []⟩ :: r.groups⟩

def closeGroup (r : Read) : Except Fault Read :=
  match r.groups with
  | [] => .error .unopenedGroup
  | g :: gs =>
    .ok ⟨.group (r.branch.reverse :: g.earlier).reverse :: g.around, gs⟩

/-- A comma divides the branches of a group and stands for itself elsewhere. -/
def comma (r : Read) : Read :=
  match r.groups with
  | [] => r.push (.literal ',')
  | g :: gs => ⟨[], { g with earlier := r.branch.reverse :: g.earlier } :: gs⟩

/-- Turns the slash before two stars into directories. -/
def spread (r : Read) (p : Piece) : Read :=
  match r.branch with
  | .leading :: _ => r
  | .trailing :: _ => r
  | _ :: rest => { r with branch := p :: rest }
  | [] => r.push p

/-- Two stars, after the character `prev` and before `cs`, and whether they take up the slash that
follows. -/
def doubleStar (r : Read) (prev : Option Char) (cs : List Char) : Read × Bool :=
  let plain := ((r.push .star).push .star, false)
  let slash := cs.head? == some '/'
  if r.branch.isEmpty then
    if slash || cs.isEmpty then (r.push .leading, slash) else plain
  else if prev == some '/' || (r.inGroup && (prev == some ',' || prev == some '\x7b')) then
    if slash then (r.spread .between, true)
    else if cs.isEmpty || (r.inGroup && (cs.head? == some ',' || cs.head? == some '\x7d')) then
      (r.spread .trailing, false)
    else plain
  else plain

end Read

/-- Reads the pieces of a pattern from `cs`, after the character `prev`. -/
def readPieces (r : Read) (prev : Option Char) (cs : List Char) : Except Fault Read :=
  match cs with
  | [] => .ok r
  | '*' :: '*' :: cs =>
    match r.doubleStar prev cs with
    | (r, false) => readPieces r (some '*') cs
    | (r, true) => readPieces r (some '/') (cs.drop 1)
  | '\\' :: c :: cs => readPieces (r.push (.literal c)) (some c) cs
  | c :: cs =>
    if c = '?' then readPieces (r.push .any) (some c) cs
    else if c = '*' then readPieces (r.push .star) (some c) cs
    else if c = '[' then
      match h : readClass ⟨[], true, false⟩ (negation cs).2 with
      | .error e => .error e
      | .ok (ranges, rest) =>
        have _shorter := Nat.lt_of_lt_of_le (length_of_readClass h) (length_negation cs)
        readPieces (r.push (.oneOf (negation cs).1 ranges)) (some ']') rest
    else if c = '\x7b' then readPieces r.openGroup (some c) cs
    else if c = '\x7d' then
      match r.closeGroup with
      | .error e => .error e
      | .ok r => readPieces r (some c) cs
    else if c = ',' then readPieces r.comma (some c) cs
    else if c = '\\' then .error .danglingEscape
    else readPieces (r.push (.literal c)) (some c) cs
termination_by cs.length
decreasing_by
  all_goals simp_wf
  all_goals omega

/-- A pattern with its text. -/
structure Pattern where
  text : String
  pieces : List Piece

/-- Reads a pattern. -/
def Pattern.parse (text : String) : Except PatternError Pattern :=
  match readPieces ⟨[], []⟩ none text.toList with
  | .error fault => .error ⟨text, fault⟩
  | .ok r => if r.inGroup then .error ⟨text, .unclosedGroup⟩ else .ok ⟨text, r.branch.reverse⟩

end GoComplexity.Glob
