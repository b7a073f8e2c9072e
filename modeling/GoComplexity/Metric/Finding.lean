import GoComplexity.Metric.Cyclomatic
import GoComplexity.Metric.FanOut
import GoComplexity.Metric.NestDepth
import GoComplexity.Metric.Override
import GoComplexity.Metric.Parameters

/-!
# Measuring functions

Every metric is measured for every function with a body. Nesting depth is reported at its deepest
place, the other metrics at the `func` keyword. A value above the warning bound that is in force for
the function gives a finding.
-/

namespace GoComplexity

open Syntax

/-- A metric value outside the green zone. -/
structure Finding where
  metric : Metric
  function : String
  pos : Position
  severity : Severity
  value : Nat
  /-- The thresholds in force, comments included. -/
  thresholds : Thresholds
  message : String
deriving DecidableEq

namespace Metric

/-- The wording of a finding. -/
def message (m : Metric) (function : String) (value : Nat) (t : Thresholds) (zone : Zone) : String :=
  "function " ++ function ++ " has " ++ m.measured value ++ " (warn: >" ++ toString t.warn ++
    ", fail: >" ++ toString t.fail ++ ") [" ++ zone.category ++ "]"

/-- The value of a metric for a body and where it is reported. -/
def measureBody {S : Type} [BEq S] (m : Metric) (f : FunctionDecl) (body : Block)
    (resolve : Expr → Callee S) : Nat × Position :=
  match m with
  | .nestDepth => (body.maxDepth.depth, body.maxDepth.pos)
  | .cyclo => (body.complexity, f.pos)
  | .params => (countParams f.params, f.pos)
  | .fanOut => (body.fanOut resolve, f.pos)

/-- The value of a metric for a function; nothing without a body. -/
def measure {S : Type} [BEq S] (m : Metric) (f : FunctionDecl) (resolve : Expr → Callee S) :
    Option (Nat × Position) :=
  f.body.map fun body ↦ m.measureBody f body resolve

end Metric

/-- The finding of one metric for a measured value. -/
def Finding.of? (settings : Settings) (f : FunctionDecl) (m : Metric) (value : Nat) (pos : Position) :
    Option Finding :=
  let thresholds := Override.resolve f.doc m.name (settings.get m)
  let zone := thresholds.classify value
  zone.severity.map fun severity ↦
    { metric := m
      function := f.displayName
      pos := pos
      severity := severity
      value := value
      thresholds := thresholds
      message := m.message f.displayName value thresholds zone }

/-- The findings of a function, in metric order. -/
def analyze {S : Type} [BEq S] (settings : Settings) (f : FunctionDecl) (resolve : Expr → Callee S) :
    List Finding :=
  Metric.all.filterMap fun m ↦
    (m.measure f resolve).bind fun (value, pos) ↦ Finding.of? settings f m value pos

end GoComplexity
