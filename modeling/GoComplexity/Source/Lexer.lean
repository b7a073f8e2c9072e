import GoComplexity.Source.Token
import GoComplexity.Text.Identifier
import GoComplexity.Text.Utf8

/-!
# Splitting a source into tokens

Each token is the longest one that the source has at its place. Blanks and comments between tokens
are recorded with the token that follows. A source with a byte that starts no token has none.
-/

namespace GoComplexity.Source

open Syntax Text

/-- Whether a byte is the given ASCII character. -/
def byteIs (b : UInt8) (c : Char) : Bool := b.toNat == c.toNat

def isSpace (b : UInt8) : Bool := b == 32 || (9 ≤ b && b ≤ 13)

def isDecimal (b : UInt8) : Bool := 48 ≤ b && b ≤ 57

def isOctal (b : UInt8) : Bool := 48 ≤ b && b ≤ 55

def isBinary (b : UInt8) : Bool := b == 48 || b == 49

def isHex (b : UInt8) : Bool := isDecimal b || (97 ≤ b && b ≤ 102) || (65 ≤ b && b ≤ 70)

/-- Whether the bytes start with the ASCII text. -/
def startsWith (bytes : List UInt8) (text : String) : Bool := text.toUTF8.toList.isPrefixOf bytes

/-! ### Comments -/

/-- The number of bytes up to and including the first `*/`. -/
def blockEnd? : List UInt8 → Option Nat
  | 42 :: 47 :: _ => some 2
  | 0 :: _ => none
  | _ :: rest => (blockEnd? rest).map (· + 1)
  | [] => none

/-- The length of the comment that the bytes start with. -/
def commentLength? : List UInt8 → Option Nat
  | 47 :: 47 :: rest => some (2 + (rest.takeWhile fun b ↦ b != 10 && b != 0).length)
  | 47 :: 42 :: rest => (blockEnd? rest).map (· + 2)
  | _ => none

/-! ### Words -/

def isAsciiLetter (b : UInt8) : Bool :=
  byteIs b '_' || (97 ≤ b && b ≤ 122) || (65 ≤ b && b ≤ 90)

/-- The length of the longest run of identifier characters. -/
def wordTail : Nat → List UInt8 → Nat
  | 0, _ => 0
  | _, [] => 0
  | fuel + 1, b :: rest =>
    if b < 0x80 then if isAsciiLetter b || isDecimal b then 1 + wordTail fuel rest else 0
    else match decodeChar? (b :: rest) with
      | some (c, width) =>
        if continuesIdentifier c then width + wordTail fuel ((b :: rest).drop width) else 0
      | none => 0

/-- The length of the word that the bytes start with. -/
def wordLength? (bytes : List UInt8) : Option Nat := do
  let (c, width) ← decodeChar? bytes
  if startsIdentifier c then
    let rest := bytes.drop width
    return width + wordTail rest.length rest
  else none

/-! ### Numbers -/

mutual

/-- The length of the longest run of digits with single underscores between them. -/
def digitsLength (p : UInt8 → Bool) : List UInt8 → Nat
  | [] => 0
  | b :: rest => if p b then 1 + digitsRest p rest else 0

/-- What may follow a digit: more digits, each with at most one underscore before it. -/
def digitsRest (p : UInt8 → Bool) : List UInt8 → Nat
  | [] => 0
  | b :: rest =>
    if p b then 1 + digitsRest p rest
    else if byteIs b '_' then
      match digitsLength p rest with
      | 0 => 0
      | n + 1 => 1 + (n + 1)
    else 0

end

/-- The length of digits after an optional underscore. -/
def prefixedDigits (p : UInt8 → Bool) : List UInt8 → Nat
  | [] => 0
  | b :: rest =>
    if byteIs b '_' then
      match digitsLength p rest with
      | 0 => 0
      | n + 1 => n + 2
    else digitsLength p (b :: rest)

/-- The length `skip + n` if `n` is positive. -/
def found (skip n : Nat) : List Nat := if n = 0 then [] else [skip + n]

/-- The lengths of the integer literals at the start of the bytes. -/
def integerLengths : List UInt8 → List Nat
  | 48 :: rest =>
    let based := match rest with
      | b :: more =>
        if byteIs b 'x' || byteIs b 'X' then found 2 (prefixedDigits isHex more)
        else if byteIs b 'b' || byteIs b 'B' then found 2 (prefixedDigits isBinary more)
        else if byteIs b 'o' || byteIs b 'O' then found 2 (prefixedDigits isOctal more)
        else []
      | [] => []
    1 :: found 1 (prefixedDigits isOctal rest) ++ based
  | b :: rest => if isDecimal b then [1 + digitsRest isDecimal rest] else []
  | [] => []

/-- The length of an exponent with the given letters; zero if there is none. -/
def exponentLength (lower upper : Char) : List UInt8 → Nat
  | [] => 0
  | b :: rest =>
    if byteIs b lower || byteIs b upper then
      match rest with
      | s :: more =>
        if byteIs s '+' || byteIs s '-' then
          match digitsLength isDecimal more with
          | 0 => 0
          | n + 1 => n + 3
        else
          match digitsLength isDecimal (s :: more) with
          | 0 => 0
          | n + 1 => n + 2
      | [] => 0
    else 0

/-- The lengths of the decimal floating-point literals at the start of the bytes. -/
def decimalFloatLengths (bytes : List UInt8) : List Nat :=
  let whole := digitsLength isDecimal bytes
  match bytes.drop whole with
  | 46 :: rest =>
    let fraction := digitsLength isDecimal rest
    if whole + fraction = 0 then []
    else [whole + 1 + fraction + exponentLength 'e' 'E' (rest.drop fraction)]
  | rest =>
    if whole = 0 then [] else found whole (exponentLength 'e' 'E' rest)

/-- The lengths of the hexadecimal floating-point literals at the start of the bytes. -/
def hexFloatLengths : List UInt8 → List Nat
  | 48 :: b :: rest =>
    if byteIs b 'x' || byteIs b 'X' then
      let whole := prefixedDigits isHex rest
      let mantissas := match rest.drop whole with
        | 46 :: more =>
          let fraction := digitsLength isHex more
          if whole + fraction = 0 then found 0 whole
          else found 0 whole ++ [whole + 1 + fraction]
        | _ => found 0 whole
      mantissas.flatMap fun m ↦ found (2 + m) (exponentLength 'p' 'P' (rest.drop m))
    else []
  | _ => []

/-- The longest of some lengths of literals of one kind. -/
def longest (kind : LitKind) (lengths : List Nat) : TokenKind × Nat :=
  (.lit kind, lengths.foldl max 0)

/-- The number literal that the bytes start with. -/
def number? (bytes : List UInt8) : Option (TokenKind × Nat) :=
  let ints := integerLengths bytes
  let floats := decimalFloatLengths bytes ++ hexFloatLengths bytes
  let imags := (found 0 (digitsLength isDecimal bytes) ++ ints ++ floats).filterMap fun n ↦
    match bytes.drop n with
    | b :: _ => if byteIs b 'i' then some (n + 1) else none
    | [] => none
  let best := [longest .float floats, longest .imag imags].foldl
    (fun a b ↦ if a.2 < b.2 then b else a) (longest .int ints)
  if best.2 = 0 then none else some best

/-! ### Strings and runes -/

/-- The number of hexadecimal digits that an escape letter asks for. -/
def escapeDigits (b : UInt8) : Nat :=
  if byteIs b 'x' then 2 else if byteIs b 'u' then 4 else if byteIs b 'U' then 8 else 0

/-- Whether the bytes start with `n` hexadecimal digits. -/
def hexDigitsAhead (n : Nat) (bytes : List UInt8) : Bool :=
  (bytes.take n).length == n && (bytes.take n).all isHex

/-- What was read last inside double quotes. Text cannot go on behind a line break. Comments may stand
there, as between any two pieces of syntax, and text goes on behind a block comment. -/
inductive QuotedState where
  /-- Text in which an escape asks for some more hexadecimal digits. -/
  | text (digits : Nat)
  | backslash
  /-- Blanks behind a line break. -/
  | gap
  /-- A slash that has to start a comment. -/
  | slash
  | lineComment
  | blockComment
  /-- A star in a block comment. -/
  | star
deriving DecidableEq

def QuotedState.next? : QuotedState → UInt8 → Option QuotedState
  | _, 0 => none
  | .text (n + 1), b => if isHex b then some (.text n) else none
  | .text 0, 10 => some .gap
  | .text 0, 92 => some .backslash
  | .text 0, _ => some (.text 0)
  | .backslash, b => some (.text (escapeDigits b))
  | .gap, 47 => some .slash
  | .gap, b => if isSpace b then some .gap else none
  | .slash, 47 => some .lineComment
  | .slash, 42 => some .blockComment
  | .slash, _ => none
  | .lineComment, 10 => some .gap
  | .lineComment, _ => some .lineComment
  | .blockComment, 42 => some .star
  | .blockComment, _ => some .blockComment
  | .star, 42 => some .star
  | .star, 47 => some (.text 0)
  | .star, _ => some .blockComment

/-- The number of bytes up to and including the closing double quote. -/
def quotedEnd? : QuotedState → List UInt8 → Option Nat
  | _, [] => none
  | state, b :: rest =>
    if b == 34 && state == .text 0 then some 1
    else match state.next? b with
      | none => none
      | some state' => (quotedEnd? state' rest).map (· + 1)

/-- The number of bytes up to and including the closing back quote. -/
def rawEnd? : List UInt8 → Option Nat
  | [] => none
  | 96 :: _ => some 1
  | 0 :: _ => none
  | _ :: rest => (rawEnd? rest).map (· + 1)

/-- The length of an escape sequence in a rune literal, without the backslash. -/
def runeEscape? : List UInt8 → Option Nat
  | [] => none
  | e :: rest =>
    if escapeDigits e ≠ 0 then
      if hexDigitsAhead (escapeDigits e) rest then some (1 + escapeDigits e) else none
    else if isOctal e then
      if (rest.take 2).length == 2 && (rest.take 2).all isOctal then some 3 else none
    else if ("abfnrtv\\\x27\"".toUTF8.toList).contains e then some 1
    else none

/-- The length of a rune literal after its opening quote. -/
def runeEnd? (bytes : List UInt8) : Option Nat := do
  let n ← match bytes with
    | [] => none
    | 0 :: _ => none
    | 39 :: _ => none
    | 92 :: rest => (runeEscape? rest).map (· + 1)
    | bytes => some (((decodeChar? bytes).map (·.2)).getD 1)
  match bytes.drop n with
  | 39 :: _ => return n + 1
  | _ => none

/-! ### Tokens -/

/-- Operators and punctuation, longer ones first. -/
def marks : List String :=
  ["<<=", ">>=", "&^=", "...",
    "<<", ">>", "&^", "+=", "-=", "*=", "/=", "%=", "&=", "|=", "^=", "&&", "||", "<-", "++", "--",
    "==", "!=", "<=", ">=", ":=",
    "+", "-", "*", "/", "%", "&", "|", "^", "<", ">", "=", "!", "(", ")", "[", "]", "\x7b", "\x7d",
    ",", ";", ".", ":", "~", "\x00"]

def mark? (bytes : List UInt8) : Option (TokenKind × Nat) :=
  (marks.find? (startsWith bytes)).map fun m ↦ (.mark m, m.utf8ByteSize)

/-- The text of some bytes, empty if they are not UTF-8. -/
def textOf (bytes : ByteArray) : String := (decode? bytes).getD ""

/-- The token that the bytes start with and its length. -/
def lexeme? (bytes : List UInt8) : Option (TokenKind × Nat) :=
  match wordLength? bytes with
  | some n => some (.word (textOf ⟨(bytes.take n).toArray⟩), n)
  | none =>
    match bytes with
    | 34 :: rest => (quotedEnd? (.text 0) rest).map fun n ↦ (.lit .string, n + 1)
    | 96 :: rest => (rawEnd? rest).map fun n ↦ (.lit .string, n + 1)
    | 39 :: rest => (runeEnd? rest).map fun n ↦ (.lit .char, n + 1)
    | _ => (number? bytes).or (mark? bytes)

/-- Scans from a position on; `newline` and `comments` tell what stands before it. -/
def scan : Nat → Position → Bool → List Comment → List UInt8 → Option (List Token)
  | 0, _, _, _, bytes => if bytes.isEmpty then some [] else none
  | _ + 1, _, _, _, [] => some []
  | fuel + 1, pos, newline, comments, b :: rest =>
    if isSpace b then scan fuel (pos.advance b) (newline || b == 10) comments rest
    else match commentLength? (b :: rest) with
      | some n =>
        let stop := pos.advanceBy ((b :: rest).take n)
        scan fuel stop newline (comments ++ [⟨pos, stop⟩]) ((b :: rest).drop n)
      | none =>
        match lexeme? (b :: rest) with
        | none => none
        | some (kind, n) =>
          let stop := pos.advanceBy ((b :: rest).take n)
          (scan fuel stop false [] ((b :: rest).drop n)).map
            (⟨kind, pos, stop, newline, comments⟩ :: ·)

/-- The byte order mark that some bytes start with; empty if there is none. -/
def orderMark (bytes : List UInt8) : List UInt8 :=
  if [0xEF, 0xBB, 0xBF].isPrefixOf bytes then [0xEF, 0xBB, 0xBF] else []

/-- Where the text of a source begins: behind its byte order mark, if there is one. -/
def textStart (source : ByteArray) : Position := Position.start.advanceBy (orderMark source.toList)

def tokens? (source : ByteArray) : Option (List Token) :=
  scan source.size (textStart source) false [] (source.toList.drop (textStart source).offset)

end GoComplexity.Source
