import GoComplexity.Syntax.Basic

/-!
# Tokens

A token knows where it stands, whether a line break separates it from the token before, and which
comments stand between the two. Line breaks inside a comment do not count as line breaks.
-/

namespace GoComplexity.Source

open Syntax

structure Comment where
  start : Position
  stop : Position
deriving DecidableEq

inductive TokenKind where
  /-- Identifiers and keywords. -/
  | word (text : String)
  /-- Operators and punctuation. -/
  | mark (text : String)
  | lit (kind : LitKind)
deriving DecidableEq, Inhabited

structure Token where
  kind : TokenKind
  start : Position
  /-- The position after the last byte. -/
  stop : Position
  /-- Whether a line break stands before the token. -/
  newline : Bool
  /-- The comments between the token before and this one. -/
  comments : List Comment
deriving DecidableEq, Inhabited

/-- The two tokens of a mark of two characters, the first one as long as `a`. -/
def Token.halves (t : Token) (a b : String) : List Token :=
  let middle := t.start.advanceBy a.toUTF8.toList
  [{ t with kind := .mark a, stop := middle },
    { kind := .mark b, start := middle, stop := t.stop, newline := false, comments := [] }]

/-- Words that start a type. -/
def typeWords : List String := ["chan", "func", "interface", "map", "struct"]

/-- Words that stand for a constant where an expression is expected. -/
def constants : List String := ["nil", "true", "false", "iota"]

/-- Words that take a type as first argument where an expression is expected. -/
def makers : List String := ["new", "make"]

/-- Words that start a clause of a switch or select. -/
def clauseWords : List String := ["case", "default"]

/-- Words that start a statement, those for expressions apart. -/
def statementWords : List String :=
  ["break", "const", "continue", "defer", "fallthrough", "for", "go", "goto", "if", "return",
    "select", "switch", "type", "var"]

/-- Words that start what can only stand at top level. -/
def fileWords : List String := ["import", "package"]

/-- What could stand in the place of an identifier. A word is a keyword only where it could start
something, so the place of an identifier tells which words are none. -/
inductive Rival where
  | nothing
  | clause
  | type
  | expression
deriving DecidableEq

/-- The words that are keywords in the place of an identifier. -/
def Rival.words : Rival → List String
  | .nothing => []
  | .clause => clauseWords
  | .type => typeWords
  | .expression => typeWords ++ constants ++ makers

/-- What a grammar rule asks of a token. -/
inductive TokenClass where
  | mark (text : String)
  | oneOf (marks : List String)
  | keyword (text : String)
  /-- An identifier: a word that nothing else that could stand there starts with. -/
  | name (rival : Rival)
  | constant
  | maker
  | literal
  | string
deriving DecidableEq

def TokenClass.admits (c : TokenClass) (k : TokenKind) : Bool :=
  match c, k with
  | .mark text, .mark m => m == text
  | .oneOf marks, .mark m => marks.contains m
  | .keyword text, .word w => w == text
  | .name rival, .word w => !rival.words.contains w
  | .constant, .word w => constants.contains w
  | .maker, .word w => makers.contains w
  | .literal, .lit _ => true
  | .string, .lit .string => true
  | _, _ => false

end GoComplexity.Source
