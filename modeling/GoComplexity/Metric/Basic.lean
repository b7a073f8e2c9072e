/-!
# The metrics

Four numbers are measured for each function. Their names appear in directives, options and
configuration files, and their order is the order of every report.
-/

namespace GoComplexity

inductive Metric where
  | nestDepth
  | cyclo
  | params
  | fanOut
deriving DecidableEq

namespace Metric

/-- All metrics in report order. -/
def all : List Metric := [.nestDepth, .cyclo, .params, .fanOut]

def name : Metric → String
  | .nestDepth => "nestdepth"
  | .cyclo => "cyclo"
  | .params => "params"
  | .fanOut => "fanout"

/-- The metric of a name. -/
def ofName? (s : String) : Option Metric := all.find? fun m ↦ m.name == s

/-- The place of a metric in report order. -/
def rank : Metric → Nat
  | .nestDepth => 0
  | .cyclo => 1
  | .params => 2
  | .fanOut => 3

def description : Metric → String
  | .nestDepth => "Reports functions with excessive nesting depth. Depth grows with if/else, " ++
      "for/range, switch, select, case clauses and function literals. Error guard clauses are " ++
      "exempt."
  | .cyclo => "Reports functions with high cyclomatic complexity: 1 plus one for each if, for, " ++
      "range and non-default case. Error guard clauses are exempt."
  | .params => "Reports functions with too many parameters, counting grouped parameters such as " ++
      "func(a, b int) individually."
  | .fanOut => "Reports functions calling too many distinct functions. Builtins, type conversions " ++
      "and standard library calls are excluded."

/-- How a message words a measured value. -/
def measured (m : Metric) (value : Nat) : String :=
  match m with
  | .nestDepth => "a nesting depth of " ++ toString value
  | .cyclo => "cyclomatic complexity of " ++ toString value
  | .params => toString value ++ " parameters"
  | .fanOut => "fan out of " ++ toString value

end Metric

end GoComplexity
