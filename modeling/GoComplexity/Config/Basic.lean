import GoComplexity.Metric.Settings

/-!
# Configuration

What a configuration file can set: thresholds by metric, whether test files are analysed, and the
paths to leave out. Whatever it does not set keeps its default.
-/

namespace GoComplexity

structure Config where
  /-- The metrics with an entry, in report order and each at most once. -/
  thresholds : Layer
  includeTests : Option Bool
  /-- Patterns for paths relative to the working directory. -/
  excludedPaths : List String
deriving DecidableEq

namespace Config

def empty : Config := ⟨[], none, []⟩

/-- Whether the file asks for test files; it does not by default. -/
def wantsTests (c : Config) : Bool := c.includeTests.getD false

/-- Puts entries into report order; of several entries for one metric the last one counts. -/
def layerOf (entries : List (Metric × PartialThresholds)) : Layer :=
  Metric.all.filterMap fun m ↦ entries.reverse.find? (·.1 == m)

/-- The names under which a file is looked for, in this order. -/
def fileNames : List String := [".complexity-lint.yaml", "complexity-lint.yaml"]

end Config

end GoComplexity
