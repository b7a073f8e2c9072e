import GoComplexity.Metric.Finding

/-!
# Violations

A violation is a finding with the file it was found in. Reports list violations by file, line, column
and metric.
-/

namespace GoComplexity

structure Violation where
  rule : Metric
  message : String
  /-- The path relative to the working directory. -/
  file : String
  line : Nat
  column : Nat
  severity : Severity
  /-- The name of the function as diagnostics show it. -/
  function : String
  value : Nat
  thresholds : Thresholds
deriving DecidableEq

namespace Violation

def ofFinding (file : String) (f : Finding) : Violation :=
  { rule := f.metric
    message := f.message
    file := file
    line := f.pos.line
    column := f.pos.column
    severity := f.severity
    function := f.function
    value := f.value
    thresholds := f.thresholds }

/-- Report order. Violations that differ in other parts only are equal in it. -/
def le (a b : Violation) : Bool :=
  if a.file ≠ b.file then a.file < b.file
  else if a.line ≠ b.line then a.line < b.line
  else if a.column ≠ b.column then a.column < b.column
  else a.rule.rank ≤ b.rule.rank

end Violation

end GoComplexity
