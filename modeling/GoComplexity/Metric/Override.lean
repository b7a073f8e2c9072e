import GoComplexity.Metric.Settings
import GoComplexity.Text.Blank
import GoComplexity.Text.Split

/-!
# Thresholds set by a comment

A doc comment line such as `//complexity:cyclo:warn=8,fail=10` overrides the thresholds of one metric
for one function. The first line for a metric decides; inside it the last readable value of a key
counts, and parts that cannot be read are passed over.
-/

namespace GoComplexity.Override

open Text

/-- What every line for `metric` starts with. -/
def lead (metric : String) : List Char := ("//complexity:" ++ metric ++ ":").toList

/-- The text after the lead of the first line for `metric`. -/
def find? (doc : List String) (metric : String) : Option (List Char) :=
  doc.findSome? fun line ↦ after? (lead metric) (trim line.toList)

/-- The key and value of one part, if it has the form `key=integer`. -/
def readPart? (part : List Char) : Option (List Char × Int) := do
  let (key, value) ← cut '=' (trim part)
  let n ← readInt64? (trim value)
  return (trim key, n)

/-- Sets the bound that a part names. -/
def applyPart (t : Thresholds) (part : List Char) : Thresholds :=
  match readPart? part with
  | none => t
  | some (key, n) =>
    if key = "warn".toList then { t with warn := n }
    else if key = "fail".toList then { t with fail := n }
    else t

/-- The thresholds for `metric` under the comments of a function. -/
def resolve (doc : List String) (metric : String) (defaults : Thresholds) : Thresholds :=
  match find? doc metric with
  | none => defaults
  | some directive => (split ',' directive).foldl applyPart defaults

end GoComplexity.Override
