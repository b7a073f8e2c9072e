import GoComplexity.Yaml.Cursor

/-!
# Scalars

Plain and quoted scalars may go over several lines: one line break is a space, and of several breaks
the first one is dropped. A literal block keeps its lines, and a folded block joins neighbours that
do not start with a blank.
-/

namespace GoComplexity.Yaml

/-- How a scalar is written, as far as it decides what the scalar can mean. -/
inductive Style where
  | plain
  | literal
  /-- Quoted and folded scalars, which are never anything but text. -/
  | textual
deriving DecidableEq

/-! ### Gaps -/

/-- The blanks and line breaks between two pieces of a scalar. -/
structure Gap where
  /-- The blanks of a gap without line break. -/
  blanks : List Char
  /-- The first line break; an escaped one counts as empty. -/
  first : Option (List Char)
  /-- The line breaks after the first one. -/
  more : List Char
deriving DecidableEq

namespace Gap

def empty : Gap := ⟨[], none, []⟩

/-- The gap that an escaped line break opens. -/
def escaped : Gap := ⟨[], some [], []⟩

def broken (g : Gap) : Bool := g.first.isSome

/-- What stands for the gap in the scalar's text. -/
def text (g : Gap) : List Char :=
  match g.first with
  | none => g.blanks
  | some lead => if lead = ['\n'] then (if g.more.isEmpty then [' '] else g.more) else lead ++ g.more

def addBlank (g : Gap) (c : Char) : Gap := if g.broken then g else { g with blanks := g.blanks ++ [c] }

def addBreak (g : Gap) (c : Char) : Gap :=
  if g.broken then { g with more := g.more ++ [c] } else ⟨[], some [c], []⟩

/-- Extends a gap by the blanks and breaks that follow, and counts them. A tab that stands for
indentation is refused. -/
def read (indent : Nat) : (column : Nat) → List Char → Gap → Option (Gap × Nat)
  | _, [], g => some (g, 0)
  | column, c :: cs, g =>
    if isBlank c then
      if g.broken && c == '\t' && column < indent then none
      else (read indent (column + 1) cs (g.addBlank c)).map fun (g, n) ↦ (g, n + 1)
    else if isBreak c then (read indent 0 cs (g.addBreak c)).map fun (g, n) ↦ (g, n + 1)
    else some (g, 0)

end Gap

/-! ### Plain scalars -/

/-- The characters that delimit flow collections. -/
def flowMarks : List Char := [',', '[', ']', '\x7b', '\x7d']

/-- The characters of a plain scalar up to a blank or to where it has to end. In a flow collection
a colon directly before a delimiter is refused. -/
def plainRun (flow : Bool) : List Char → Option (List Char)
  | [] => some []
  | c :: cs =>
    if isBlank c || isBreak c then some []
    else if flow && c == ':' && startsWithAny ('?' :: flowMarks) cs then none
    else if c == ':' && endsWord cs then some []
    else if flow && flowMarks.contains c then some []
    else (plainRun flow cs).map (c :: ·)

/-- Reads a plain scalar: its text, whether a line break follows it, and the place after both. -/
def plainScalar (flow : Bool) (indent : Nat) : Nat → Cursor → Option (List Char × Bool × Cursor)
  | 0, _ => none
  | fuel + 1, c =>
    if c.atMarker || startsWithAny ['#'] c.rest then some ([], false, c)
    else do
      let run ← plainRun flow c.rest
      let stop := c.advance run.length
      let (gap, n) ← Gap.read indent stop.column stop.rest Gap.empty
      let next := stop.advance n
      if n == 0 || (!flow && next.column < indent) then return (run, gap.broken, next)
      let (more, broken, last) ← plainScalar flow indent fuel next
      if more.isEmpty then return (run, gap.broken, last)
      return (run ++ gap.text ++ more, broken, last)

/-! ### Quoted scalars -/

def hexValue? (c : Char) : Option Nat :=
  if c.isDigit then some (c.toNat - 48)
  else if 'a' ≤ c && c ≤ 'f' then some (c.toNat - 87)
  else if 'A' ≤ c && c ≤ 'F' then some (c.toNat - 55)
  else none

/-- The number that the first `n` characters denote in base sixteen. -/
def readHex? : Nat → List Char → Nat → Option Nat
  | 0, _, value => some value
  | _ + 1, [], _ => none
  | n + 1, c :: cs, value => (hexValue? c).bind fun d ↦ readHex? n cs (16 * value + d)

/-- A character by its code point in `n` hexadecimal digits. -/
def coded? (n : Nat) (cs : List Char) : Option (Char × Nat) := do
  let value ← readHex? n cs 0
  if value.isValidChar then return (Char.ofNat value, n + 1) else none

/-- Characters with an escape of one letter. -/
def shortEscapes : List (Char × Char) :=
  [('0', '\x00'), ('a', '\x07'), ('b', '\x08'), ('t', '\t'), ('\t', '\t'), ('n', '\n'), ('v', '\x0b'),
    ('f', '\x0c'), ('r', '\r'), ('e', '\x1b'), (' ', ' '), ('\x22', '\x22'), ('/', '/'), ('\\', '\\'),
    ('N', '\u0085'), ('_', '\u00a0'), ('L', '\u2028'), ('P', '\u2029')]

/-- The character that an escape stands for and the number of characters after the backslash. -/
def escape? : List Char → Option (Char × Nat)
  | [] => none
  | 'x' :: cs => coded? 2 cs
  | 'u' :: cs => coded? 4 cs
  | 'U' :: cs => coded? 8 cs
  | c :: _ => (shortEscapes.lookup c).map fun x ↦ (x, 1)

/-- Reads a quoted scalar after its opening quote, which a single quote or a double quote closes. -/
def quotedScalar (single : Bool) : Nat → Cursor → Option (List Char × Cursor)
  | 0, _ => none
  | fuel + 1, c =>
    let quote := if single then '\x27' else '\x22'
    if c.atMarker then none
    else match c.rest with
      | [] => none
      | x :: rest =>
        if x == quote then
          if single && startsWithAny [quote] rest then
            (quotedScalar single fuel (c.advance 2)).map fun (text, c) ↦ (quote :: text, c)
          else some ([], c.step)
        else if isBlank x || isBreak x then do
          let (gap, n) ← Gap.read 0 c.column c.rest Gap.empty
          let (text, c) ← quotedScalar single fuel (c.advance n)
          return (gap.text ++ text, c)
        else if !single && x == '\\' then
          match rest with
          | [] => none
          | y :: after =>
            if isBreak y then do
              let (gap, n) ← Gap.read 0 0 after Gap.escaped
              let (text, c) ← quotedScalar single fuel (c.advance (n + 2))
              return (gap.text ++ text, c)
            else do
              let (e, n) ← escape? rest
              let (text, c) ← quotedScalar single fuel (c.advance (n + 1))
              return (e :: text, c)
        else (quotedScalar single fuel c.step).map fun (text, c) ↦ (x :: text, c)

/-! ### Block scalars -/

/-- What happens to the line breaks at the end of a block. -/
inductive Chomp where
  | strip
  | clip
  | keep
deriving DecidableEq

def chomp? : Char → Option Chomp
  | '-' => some .strip
  | '+' => some .keep
  | _ => none

/-- An indentation indicator is a digit from one to nine. -/
def indicator? (c : Char) : Option Nat := if '1' ≤ c && c ≤ '9' then some (c.toNat - 48) else none

/-- The indicators after the mark of a block, in either order, and what follows them. -/
def blockHeader : List Char → Chomp × Option Nat × List Char
  | [] => (.clip, none, [])
  | a :: cs =>
    match chomp? a, indicator? a with
    | some chomp, _ =>
      match cs with
      | [] => (chomp, none, [])
      | b :: rest => match indicator? b with
        | some n => (chomp, some n, rest)
        | none => (chomp, none, cs)
    | none, some n =>
      match cs with
      | [] => (.clip, some n, [])
      | b :: rest => match chomp? b with
        | some chomp => (chomp, some n, rest)
        | none => (.clip, some n, cs)
    | none, none => (.clip, none, a :: cs)

/-- What follows a line's blanks and comment, if the line holds nothing else. -/
def restOfLine? (cs : List Char) : Option (List Char) :=
  let cs := cs.dropWhile isBlank
  let cs := if startsWithAny ['#'] cs then cs.dropWhile (fun c ↦ !isBreak c) else cs
  match cs with
  | [] => some []
  | c :: rest => if isBreak c then some rest else none

/-- Reads the indentation and the empty lines before the next line of a block: the line breaks, the
deepest column reached and the number of characters. Before the indentation is known, every space
belongs to it. A tab in the place of indentation is refused. -/
def emptyLines (indent : Option Nat) :
    (column deepest : Nat) → List Char → Option (List Char × Nat × Nat)
  | column, deepest, [] => some ([], max deepest column, 0)
  | column, deepest, c :: cs =>
    let inside := indent.all (column < ·)
    if inside && c == ' ' then
      (emptyLines indent (column + 1) deepest cs).map fun (breaks, d, n) ↦ (breaks, d, n + 1)
    else if inside && c == '\t' then none
    else if isBreak c then
      (emptyLines indent 0 (max deepest column) cs).map fun (breaks, d, n) ↦ (c :: breaks, d, n + 1)
    else some ([], max deepest column, 0)

/-- The lines of a block, with the break after the last one and the empty lines after that. -/
structure BlockText where
  text : List Char
  lastBreak : List Char
  emptyLines : List Char
  stop : Cursor

/-- Reads the lines of a block from the start of one. `lead` is the break before it, `trail` the empty
lines after that break, and `indented` tells whether the line before started with a blank. -/
def blockLines (folded : Bool) (indent : Nat) :
    Nat → (lead trail : List Char) → (indented : Bool) → Cursor → Option BlockText
  | 0, _, _, _, _ => none
  | fuel + 1, lead, trail, indented, c =>
    if c.column == indent && !c.rest.isEmpty then do
      let blank := startsWithAny [' ', '\t'] c.rest
      let joint :=
        if folded && lead == ['\n'] && !indented && !blank then
          (if trail.isEmpty then [' '] else trail)
        else lead ++ trail
      let line := c.rest.takeWhile (fun x ↦ !isBreak x)
      let stop := c.advance line.length
      let lead' := stop.rest.take 1
      let next := stop.advance lead'.length
      let (trail', _, n) ← emptyLines (some indent) next.column 0 next.rest
      let b ← blockLines folded indent fuel lead' trail' blank (next.advance n)
      return { b with text := joint ++ line ++ b.text }
    else some ⟨[], lead, trail, c⟩

/-- Reads a block scalar after its mark. `outer` is the indentation around it. -/
def blockScalar (folded : Bool) (outer : Option Nat) (c : Cursor) : Option (List Char × Cursor) := do
  let (chomp, explicit, header) := blockHeader c.rest
  let body ← restOfLine? header
  let c := c.advance (c.rest.length - body.length)
  let least := (outer.map (· + 1)).getD 0
  let explicit := explicit.map fun n ↦ outer.getD 0 + n
  let (trail, deepest, n) ← emptyLines explicit c.column 0 c.rest
  let indent := explicit.getD (max (max deepest least) 1)
  let b ← blockLines folded indent (c.rest.length + 1) [] trail false (c.advance n)
  match chomp with
  | .strip => return (b.text, b.stop)
  | .clip => return (b.text ++ b.lastBreak, b.stop)
  | .keep => return (b.text ++ b.lastBreak ++ b.emptyLines, b.stop)

end GoComplexity.Yaml
