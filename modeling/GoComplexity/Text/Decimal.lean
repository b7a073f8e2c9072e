import GoComplexity.Text.Integer

/-!
# Decimal numbers that round to zero

A decimal text is read as a coefficient and a power of ten. It denotes zero as a 64-bit binary
floating-point number if its value is at most half of the least positive one, `2 ^ (-1074)`: the tie
goes to zero, the even neighbour.
-/

namespace GoComplexity.Text

/-- The text without one leading sign. -/
def dropSign : List Char → List Char
  | '+' :: cs => cs
  | '-' :: cs => cs
  | cs => cs

/-- Reads the exponent part of a decimal text; nothing means exponent zero. -/
def readExponent? : List Char → Option Int
  | [] => some 0
  | c :: cs =>
    if c = 'e' ∨ c = 'E' then
      match cs with
      | '-' :: ds => (readNat? ds).map fun n ↦ -(n : Int)
      | '+' :: ds => (readNat? ds).map fun n ↦ (n : Int)
      | ds => (readNat? ds).map fun n ↦ (n : Int)
    else none

/-- Reads a decimal text without sign as a coefficient and a power of ten. -/
def readDecimal? (cs : List Char) : Option (Nat × Int) :=
  let whole := cs.takeWhile isDigit
  let rest := cs.dropWhile isDigit
  match rest with
  | '.' :: rest =>
    let fraction := rest.takeWhile isDigit
    if whole.isEmpty && fraction.isEmpty then none
    else (readExponent? (rest.dropWhile isDigit)).map fun e ↦
      (digitsValue (whole ++ fraction), e - fraction.length)
  | rest =>
    if whole.isEmpty then none else (readExponent? rest).map fun e ↦ (digitsValue whole, e)

/-- Whether `coefficient * 10 ^ exponent` is at most `2 ^ (-1075)`. -/
def roundsToZero (coefficient : Nat) (exponent : Int) : Bool :=
  if coefficient = 0 then true
  else if 0 ≤ exponent then false
  else
    let places := exponent.natAbs
    if (Nat.toDigits 10 coefficient).length + 400 < places then true
    else coefficient * Nat.pow 2 1075 ≤ Nat.pow 10 places

/-- Whether a decimal text, perhaps with a sign, reads as a floating-point zero. -/
def isZeroDecimal (cs : List Char) : Bool :=
  match readDecimal? (dropSign cs) with
  | some (coefficient, exponent) => roundsToZero coefficient exponent
  | none => false

end GoComplexity.Text
