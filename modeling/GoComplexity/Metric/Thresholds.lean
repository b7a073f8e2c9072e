import GoComplexity.Metric.Basic
import GoComplexity.Text.Integer

/-!
# Thresholds and zones

Values up to `warn` are green, values up to `fail` yellow, all others red. Bounds are signed, so that
a negative bound is kept until it can be refused.
-/

namespace GoComplexity

inductive Severity where
  | error
  | warning
deriving DecidableEq

def Severity.name : Severity → String
  | .error => "error"
  | .warning => "warning"

inductive Zone where
  | green
  | yellow
  | red
deriving DecidableEq

namespace Zone

def name : Zone → String
  | .green => "green"
  | .yellow => "yellow"
  | .red => "red"

/-- The severity of a finding in the zone; green values are not reported. -/
def severity : Zone → Option Severity
  | .green => none
  | .yellow => some .warning
  | .red => some .error

/-- The tag that ends a message. -/
def category (z : Zone) : String := (z.severity.map Severity.name).getD ""

end Zone

structure Thresholds where
  warn : Int
  fail : Int
deriving DecidableEq

/-- Why thresholds are refused. -/
inductive ThresholdFault where
  | negativeWarn (warn : Int)
  | negativeFail (fail : Int)
  | inverted (warn fail : Int)
deriving DecidableEq

/-- A refused pair of thresholds and the metric it was meant for. -/
structure ThresholdError where
  metric : String
  fault : ThresholdFault
deriving DecidableEq

def ThresholdFault.message : ThresholdFault → String
  | .negativeWarn warn => "warn must be non-negative, got " ++ toString warn
  | .negativeFail fail => "fail must be non-negative, got " ++ toString fail
  | .inverted warn fail => "warn (" ++ toString warn ++ ") must not exceed fail (" ++ toString fail ++ ")"

def ThresholdError.message (e : ThresholdError) : String :=
  "invalid " ++ e.metric ++ " thresholds: " ++ e.fault.message

namespace Thresholds

/-- A measured value as a bound sees it: values beyond 64 bits with sign count as the largest one. -/
def clamp (value : Nat) : Int := min (value : Int) Text.maxInt64

def classify (t : Thresholds) (value : Nat) : Zone :=
  if clamp value ≤ t.warn then .green
  else if clamp value ≤ t.fail then .yellow
  else .red

/-- The first thing wrong with the bounds. -/
def fault? (t : Thresholds) : Option ThresholdFault :=
  if t.warn < 0 then some (.negativeWarn t.warn)
  else if t.fail < 0 then some (.negativeFail t.fail)
  else if t.fail < t.warn then some (.inverted t.warn t.fail)
  else none

/-- Accepts bounds with `0 ≤ warn ≤ fail`. -/
def validate (metric : String) (t : Thresholds) : Except ThresholdError Unit :=
  match t.fault? with
  | some fault => .error ⟨metric, fault⟩
  | none => .ok ()

end Thresholds

/-- The built-in bounds of a metric. -/
def Metric.defaults : Metric → Thresholds
  | .nestDepth => ⟨4, 6⟩
  | .cyclo => ⟨9, 14⟩
  | .params => ⟨4, 6⟩
  | .fanOut => ⟨6, 9⟩

end GoComplexity
