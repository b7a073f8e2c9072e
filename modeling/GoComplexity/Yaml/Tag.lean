import GoComplexity.Text.Utf8
import GoComplexity.Yaml.Scalar

/-!
# Tags and directives

A tag is a handle and a suffix. Handles are `!`, `!!` and those that a directive declares; the empty
handle belongs to a tag that is written out in full.
-/

namespace GoComplexity.Yaml

/-- The characters of a tag's suffix; a tag written out may hold delimiters as well. -/
def isTagChar (full : Bool) (c : Char) : Bool :=
  isWord c || ";/?:@&=+$.!~*\x27()".toList.contains c || (full && ",[]".toList.contains c)

/-- A byte written as a percent sign and two hexadecimal digits. -/
def percentByte? : List Char → Option (UInt8 × List Char)
  | '%' :: a :: b :: rest => do
    let hi ← hexValue? a
    let lo ← hexValue? b
    return ((16 * hi + lo).toUInt8, rest)
  | _ => none

/-- Bytes written with percent signs, at most `n`. -/
def percentBytes : Nat → List Char → List UInt8
  | 0, _ => []
  | n + 1, cs => match percentByte? cs with
    | some (b, rest) => b :: percentBytes n rest
    | none => []

/-- A character written as the bytes of its encoding, and the number of characters read. -/
def percentChar? (cs : List Char) : Option (Char × Nat) :=
  (Text.decodeChar? (percentBytes 4 cs)).map fun (c, n) ↦ (c, 3 * n)

/-- Reads the suffix of a tag and gives what follows it. -/
def tagSuffix (full : Bool) : Nat → List Char → Option (List Char × List Char)
  | 0, _ => none
  | _ + 1, [] => some ([], [])
  | fuel + 1, c :: cs =>
    if c == '%' then do
      let (x, n) ← percentChar? (c :: cs)
      let (suffix, rest) ← tagSuffix full fuel ((c :: cs).drop n)
      return (x :: suffix, rest)
    else if isTagChar full c then
      (tagSuffix full fuel cs).map fun (suffix, rest) ↦ (c :: suffix, rest)
    else some ([], c :: cs)

/-- Reads a suffix that is not empty. -/
def tagSuffix1 (full : Bool) (cs : List Char) : Option (List Char × List Char) := do
  let (suffix, rest) ← tagSuffix full (cs.length + 1) cs
  if suffix.isEmpty then none else return (suffix, rest)

/-- Reads an exclamation mark, a name and perhaps a second exclamation mark. -/
def tagHandle : List Char → Option (List Char × List Char)
  | '!' :: cs =>
    let name := cs.takeWhile isWord
    match cs.dropWhile isWord with
    | '!' :: rest => some ('!' :: name ++ ['!'], rest)
    | rest => some ('!' :: name, rest)
  | _ => none

/-- A tag before its handle is looked up. -/
structure Tag where
  handle : String
  suffix : String
deriving DecidableEq

/-- Reads a tag and gives what follows it. -/
def readTag (flow : Bool) (cs : List Char) : Option (Tag × List Char) := do
  let (tag, rest) ← match cs with
    | '!' :: '<' :: cs => do
      let (suffix, rest) ← tagSuffix1 true cs
      match rest with
      | '>' :: rest => some (⟨"", String.ofList suffix⟩, rest)
      | _ => none
    | _ => do
      let (handle, rest) ← tagHandle cs
      if 1 < handle.length && handle.getLast? == some '!' then
        let (suffix, rest) ← tagSuffix1 false rest
        some (⟨String.ofList handle, String.ofList suffix⟩, rest)
      else
        let (suffix, rest) ← tagSuffix false (rest.length + 1) rest
        let suffix := handle.drop 1 ++ suffix
        if suffix.isEmpty then some (⟨"", "!"⟩, rest) else some (⟨"!", String.ofList suffix⟩, rest)
  if endsWord rest || (flow && startsWithAny [','] rest) then return (tag, rest) else none

/-- What a directive declares. -/
inductive Directive where
  | version
  /-- A handle and what it stands for. -/
  | handle (name expansion : String)
deriving DecidableEq

/-- Reads a number of at most nine digits. -/
def versionPart (cs : List Char) : Option (Nat × List Char) :=
  let digits := cs.takeWhile Char.isDigit
  if digits.isEmpty || 9 < digits.length then none
  else some (digits.foldl (fun n d ↦ 10 * n + (d.toNat - 48)) 0, cs.drop digits.length)

/-- Only versions 1.1 and 1.2 are read. -/
def versionDirective (cs : List Char) : Option (Directive × List Char) := do
  let (major, rest) ← versionPart (cs.dropWhile isBlank)
  match rest with
  | '.' :: rest =>
    let (minor, rest) ← versionPart rest
    if major == 1 && (minor == 1 || minor == 2) then return (.version, rest) else none
  | _ => none

def handleDirective (cs : List Char) : Option (Directive × List Char) := do
  let (handle, rest) ← tagHandle (cs.dropWhile isBlank)
  if handle != ['!'] && handle.getLast? != some '!' then none
  else if !startsWithAny [' ', '\t'] rest then none
  else
    let (expansion, rest) ← tagSuffix1 true (rest.dropWhile isBlank)
    if endsWord rest then return (.handle (String.ofList handle) (String.ofList expansion), rest)
    else none

/-- Reads a directive after its percent sign, to the end of its line. -/
def readDirective (cs : List Char) : Option (Directive × List Char) := do
  let name := cs.takeWhile isWord
  let rest := cs.dropWhile isWord
  let (directive, rest) ←
    if !endsWord rest then none
    else if name == "YAML".toList then versionDirective rest
    else if name == "TAG".toList then handleDirective rest
    else none
  return (directive, ← restOfLine? rest)

end GoComplexity.Yaml
