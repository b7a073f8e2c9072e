import GoComplexity.Yaml.Tag

/-!
# Tokens of a YAML text

Indentation becomes explicit: every block collection has a token where it starts and one where it
ends. That something is a key shows only at the colon after it, so the reader remembers where the
last possible key started, one for each flow collection that is open, and puts the key's token there
afterwards. A key has to stand on one line, within 1024 characters.
-/

namespace GoComplexity.Yaml

inductive Token where
  | directive (d : Directive)
  | documentStart
  | documentEnd
  | blockSequenceStart
  | blockMappingStart
  | blockEnd
  | flowSequenceStart
  | flowSequenceEnd
  | flowMappingStart
  | flowMappingEnd
  | blockEntry
  | flowEntry
  | key
  | value
  | anchor (name : String)
  /-- The use of an anchored node. -/
  | reference (name : String)
  | tag (t : Tag)
  | scalar (style : Style) (text : String)
deriving DecidableEq

/-- Where a key may have started. -/
structure KeyStart where
  /-- The number of tokens before it. -/
  number : Nat
  /-- Whether only a key can stand there. -/
  required : Bool
  line : Nat
  column : Nat
  index : Nat
deriving DecidableEq

/-- The tokens read so far and what decides about the next one. -/
structure Scan where
  cursor : Cursor
  /-- The newest token first. -/
  tokens : List Token
  /-- The columns of the open block collections, innermost first. -/
  indents : List Nat
  keyStart : Option KeyStart
  /-- The possible keys around the open flow collections, innermost first. -/
  outerKeys : List (Option KeyStart)
  /-- Whether a key may start at the next token. -/
  keyAllowed : Bool
deriving DecidableEq

namespace Scan

def start (cs : List Char) : Scan := ⟨Cursor.start cs, [], [], none, [], true⟩

/-- Whether a flow collection is open. -/
def inFlow (s : Scan) : Bool := !s.outerKeys.isEmpty

def emit (t : Token) (s : Scan) : Scan := { s with tokens := t :: s.tokens }

def move (n : Nat) (s : Scan) : Scan := { s with cursor := s.cursor.advance n }

def allowKey (allowed : Bool) (s : Scan) : Scan := { s with keyAllowed := allowed }

/-- Puts a token after the first `number` ones. -/
def insert (number : Nat) (t : Token) (s : Scan) : Scan :=
  let later := s.tokens.length - number
  { s with tokens := s.tokens.take later ++ t :: s.tokens.drop later }

/-- Forgets the possible key; a required one cannot be forgotten. -/
def dropKey (s : Scan) : Option Scan :=
  match s.keyStart with
  | some k => if k.required then none else some { s with keyStart := none }
  | none => some s

/-- Remembers that a key may start here. -/
def saveKey (s : Scan) : Option Scan :=
  if s.keyAllowed then do
    let s ← s.dropKey
    let c := s.cursor
    let required := !s.inFlow && s.indents.head? == some c.column
    return { s with keyStart := some ⟨s.tokens.length, required, c.line, c.column, c.index⟩ }
  else some s

/-- A possible key that has not gone too far from its start. -/
def fresh? (c : Cursor) : Option KeyStart → Option (Option KeyStart)
  | none => some none
  | some k =>
    if k.line < c.line || k.index + 1024 < c.index then (if k.required then none else some none)
    else some (some k)

/-- Forgets the possible keys that have gone too far. -/
def expireKeys (s : Scan) : Option Scan := do
  let keyStart ← fresh? s.cursor s.keyStart
  let outerKeys ← s.outerKeys.mapM (fresh? s.cursor)
  return { s with keyStart, outerKeys }

/-- Opens a block collection at a column that is deeper than those before. -/
def openBlock (column number : Nat) (t : Token) (s : Scan) : Scan :=
  if !s.inFlow && s.indents.head?.all (· < column) then
    { s.insert number t with indents := column :: s.indents }
  else s

/-- Closes the block collections that satisfy a condition on their column. -/
def closeBlocks (deeper : Nat → Bool) (s : Scan) : Scan :=
  if s.inFlow then s
  else
    let closed := s.indents.takeWhile deeper
    { s with
      tokens := List.replicate closed.length .blockEnd ++ s.tokens
      indents := s.indents.drop closed.length }

/-- The number of characters before the next token, and whether a key may start there. A tab cannot
stand before a possible key, except in a flow collection. -/
def gapBefore (flow : Bool) : (allowed comment : Bool) → List Char → Nat × Bool
  | allowed, _, [] => (0, allowed)
  | allowed, comment, c :: cs =>
    if isBreak c then
      let (n, a) := gapBefore flow (allowed || !flow) false cs
      (n + 1, a)
    else if comment || c == '#' then
      let (n, a) := gapBefore flow allowed true cs
      (n + 1, a)
    else if c == ' ' || (c == '\t' && (flow || !allowed)) then
      let (n, a) := gapBefore flow allowed false cs
      (n + 1, a)
    else (0, allowed)

/-- Moves to the next token. -/
def toToken (s : Scan) : Scan :=
  let (n, allowed) := gapBefore s.inFlow s.keyAllowed false s.cursor.rest
  (s.move n).allowKey allowed

/-! ### Single tokens -/

/-- Ends all block collections, as directives and document markers do. -/
def endBlocks (s : Scan) : Option Scan :=
  ((s.closeBlocks fun _ ↦ true).dropKey).map (allowKey false)

def directive (s : Scan) : Option Scan := do
  let s ← s.endBlocks
  let (d, rest) ← readDirective (s.cursor.rest.drop 1)
  return (s.move (s.cursor.rest.length - rest.length)).emit (.directive d)

def marker (t : Token) (s : Scan) : Option Scan := do
  let s ← s.endBlocks
  return (s.move 3).emit t

def openFlow (t : Token) (s : Scan) : Option Scan := do
  let s ← s.saveKey
  return { (s.move 1).emit t with
    keyStart := none, outerKeys := s.keyStart :: s.outerKeys, keyAllowed := true }

def closeFlow (t : Token) (s : Scan) : Option Scan := do
  let s ← s.dropKey
  let s := match s.outerKeys with
    | [] => s
    | k :: ks => { s with keyStart := k, outerKeys := ks }
  return ((s.move 1).emit t).allowKey false

def flowEntry (s : Scan) : Option Scan := do
  let s ← s.dropKey
  return ((s.move 1).emit .flowEntry).allowKey true

/-- Starts an entry of a block collection, if a key could start here. -/
def entry (collection : Token) (s : Scan) : Option Scan :=
  if s.inFlow then some s
  else if s.keyAllowed then some (s.openBlock s.cursor.column s.tokens.length collection)
  else none

def blockEntry (s : Scan) : Option Scan := do
  let s ← (← s.entry .blockSequenceStart).dropKey
  return ((s.move 1).emit .blockEntry).allowKey true

def explicitKey (s : Scan) : Option Scan := do
  let s ← (← s.entry .blockMappingStart).dropKey
  return ((s.move 1).emit .key).allowKey (!s.inFlow)

/-- A colon: it completes a possible key, or stands for the value of an explicit key. -/
def value (s : Scan) : Option Scan := do
  let s ← match s.keyStart with
    | some k =>
      let s := (s.insert k.number .key).openBlock k.column k.number .blockMappingStart
      some { s with keyStart := none, keyAllowed := false }
    | none => (s.entry .blockMappingStart).map fun s ↦ s.allowKey (!s.inFlow)
  return (s.move 1).emit .value

/-- An anchor or a use of one. -/
def anchor (token : String → Token) (s : Scan) : Option Scan := do
  let s ← s.saveKey
  let name := (s.cursor.rest.drop 1).takeWhile isWord
  let rest := s.cursor.rest.drop (name.length + 1)
  let ends := endsWord rest || startsWithAny ['?', ':', ',', ']', '\x7d', '%', '@', '\x60'] rest
  if name.isEmpty || !ends then none
  else return ((s.move (name.length + 1)).emit (token (String.ofList name))).allowKey false

def tag (s : Scan) : Option Scan := do
  let s ← s.saveKey
  let (t, rest) ← readTag s.inFlow s.cursor.rest
  return ((s.move (s.cursor.rest.length - rest.length)).emit (.tag t)).allowKey false

def block (folded : Bool) (s : Scan) : Option Scan := do
  let s ← s.dropKey
  let (text, stop) ← blockScalar folded s.indents.head? s.cursor.step
  let style := if folded then .textual else .literal
  return { s.emit (.scalar style (String.ofList text)) with cursor := stop, keyAllowed := true }

def quoted (single : Bool) (s : Scan) : Option Scan := do
  let s ← s.saveKey
  let (text, stop) ← quotedScalar single (s.cursor.rest.length + 1) s.cursor.step
  return { s.emit (.scalar .textual (String.ofList text)) with cursor := stop, keyAllowed := false }

def plain (s : Scan) : Option Scan := do
  let s ← s.saveKey
  let indent := (s.indents.head?.map (· + 1)).getD 0
  let (text, broken, stop) ← plainScalar s.inFlow indent (s.cursor.rest.length + 1) s.cursor
  return { s.emit (.scalar .plain (String.ofList text)) with cursor := stop, keyAllowed := broken }

/-- Whether a plain scalar may start with `x` before `rest`. -/
def startsPlain (flow : Bool) (x : Char) (rest : List Char) : Bool :=
  if x == '-' then !startsWithAny [' ', '\t'] rest
  else if x == '?' || x == ':' then !flow && !endsWord rest
  else !isBlank x && !isBreak x && !flowMarks.contains x &&
    !(['#', '&', '*', '!', '|', '>', '\x27', '\x22', '%', '@', '\x60'].contains x)

/-- Reads the token that stands here. -/
def next (s : Scan) : Option Scan :=
  match s.cursor.rest with
  | [] => none
  | x :: rest =>
    if s.cursor.column == 0 && x == '%' then s.directive
    else if s.cursor.atMarker then s.marker (if x == '-' then .documentStart else .documentEnd)
    else if x == '[' then s.openFlow .flowSequenceStart
    else if x == '\x7b' then s.openFlow .flowMappingStart
    else if x == ']' then s.closeFlow .flowSequenceEnd
    else if x == '\x7d' then s.closeFlow .flowMappingEnd
    else if x == ',' then s.flowEntry
    else if x == '-' && endsWord rest then s.blockEntry
    else if x == '?' && (s.inFlow || endsWord rest) then s.explicitKey
    else if x == ':' && (s.inFlow || endsWord rest) then s.value
    else if x == '*' then s.anchor .reference
    else if x == '&' then s.anchor .anchor
    else if x == '!' then s.tag
    else if x == '|' && !s.inFlow then s.block false
    else if x == '>' && !s.inFlow then s.block true
    else if x == '\x27' then s.quoted true
    else if x == '\x22' then s.quoted false
    else if startsPlain s.inFlow x rest then s.plain
    else none

/-- Reads tokens to the end of the text. -/
def run : Nat → Scan → Option (List Token)
  | 0, _ => none
  | fuel + 1, s => do
    let s ← s.toToken.expireKeys
    let s := s.closeBlocks (s.cursor.column < ·)
    if s.cursor.rest.isEmpty then
      let s ← s.endBlocks
      return s.tokens.reverse
    else run fuel (← s.next)

end Scan

/-- The tokens of a text, if it can be read. -/
def tokens? (text : String) : Option (List Token) :=
  (readable? text).bind fun cs ↦ (Scan.start cs).run (cs.length + 1)

end GoComplexity.Yaml
