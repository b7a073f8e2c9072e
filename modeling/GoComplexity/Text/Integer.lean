/-!
# Decimal text of 64-bit integers

Thresholds are signed 64-bit numbers. Their text is an optional sign and at least one ASCII digit;
a number outside the range has no reading.
-/

namespace GoComplexity.Text

def isDigit (c : Char) : Bool := '0' ≤ c && c ≤ '9'

def digitValue (c : Char) : Nat := c.toNat - 48

/-- The number that a digit string denotes in base ten. -/
def digitsValue (cs : List Char) : Nat := cs.foldl (fun n c ↦ 10 * n + digitValue c) 0

/-- Reads one or more ASCII digits. -/
def readNat? (cs : List Char) : Option Nat :=
  if cs ≠ [] ∧ cs.all isDigit then some (digitsValue cs) else none

def minInt64 : Int := -9223372036854775808

def maxInt64 : Int := 9223372036854775807

/-- Keeps a number that fits in 64 bits with sign. -/
def fit64 (n : Int) : Option Int := if minInt64 ≤ n ∧ n ≤ maxInt64 then some n else none

/-- Reads a signed 64-bit integer: an optional sign, then digits only. -/
def readInt64? : List Char → Option Int
  | '-' :: cs => (readNat? cs).bind fun n ↦ fit64 (-(n : Int))
  | '+' :: cs => (readNat? cs).bind fun n ↦ fit64 n
  | cs => (readNat? cs).bind fun n ↦ fit64 n

end GoComplexity.Text
