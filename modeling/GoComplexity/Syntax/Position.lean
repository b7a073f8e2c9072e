/-!
# Source positions

Lines and columns count from one, columns and offsets in bytes.
-/

namespace GoComplexity.Syntax

structure Position where
  line : Nat
  column : Nat
  offset : Nat
deriving DecidableEq, Inhabited

namespace Position

/-- The position of the first byte of a file. -/
def start : Position := ⟨1, 1, 0⟩

/-- The position after one more byte: a line feed starts a new line. -/
def advance (p : Position) (byte : UInt8) : Position :=
  if byte = 10 then ⟨p.line + 1, 1, p.offset + 1⟩ else ⟨p.line, p.column + 1, p.offset + 1⟩

/-- The position after a run of bytes. -/
def advanceBy (p : Position) (bytes : List UInt8) : Position := bytes.foldl advance p

/-- Line and column, as diagnostics show them. -/
def display (p : Position) : String := toString p.line ++ ":" ++ toString p.column

end Position

end GoComplexity.Syntax
