import GoComplexity.Lint.Violation

/-!
# Outcomes

An outcome holds the violations found and how much was looked at. Outcomes of parts merge into the
outcome of the whole.
-/

namespace GoComplexity

structure Outcome where
  violations : List Violation
  /-- The number of files. -/
  scanned : Nat
  /-- The number of functions with a body. -/
  functions : Nat
deriving DecidableEq

namespace Outcome

def empty : Outcome := ⟨[], 0, 0⟩

def add (o : Outcome) (v : Violation) : Outcome := { o with violations := o.violations ++ [v] }

def merge (a b : Outcome) : Outcome :=
  ⟨a.violations ++ b.violations, a.scanned + b.scanned, a.functions + b.functions⟩

/-- Puts the violations in report order; equal ones stay in the order found. -/
def sort (o : Outcome) : Outcome := { o with violations := o.violations.mergeSort Violation.le }

def count (o : Outcome) (s : Severity) : Nat := o.violations.countP (·.severity == s)

def errors (o : Outcome) : Nat := o.count .error

def warnings (o : Outcome) : Nat := o.count .warning

def hasErrors (o : Outcome) : Bool := o.violations.any (·.severity == .error)

end Outcome

end GoComplexity
