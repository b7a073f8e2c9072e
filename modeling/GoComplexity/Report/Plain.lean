import GoComplexity.Lint.Outcome
import GoComplexity.Report.Json

/-!
# Reports for machines

The line report has one line for each violation. The JSON report holds everything that is known about
a run. The SARIF report lists the rules and the results in the interchange format of that name: it
needs slashes in paths, and lines and columns from one.
-/

namespace GoComplexity.Report

def toolName : String := "go-complexity-lint"

def toolVersion : String := "0.1.0"

/-! ### Lines -/

/-- The line of a violation, with its line break. -/
def line (v : Violation) : String :=
  v.file ++ ":" ++ toString v.line ++ ":" ++ toString v.column ++ ": " ++ v.message ++ "\n"

def lines (o : Outcome) : String := String.join (o.violations.map line)

/-! ### JSON -/

def boundsJson (t : Thresholds) : Json := .obj [("warn", .int t.warn), ("fail", .int t.fail)]

def settingsJson (s : Settings) : Json :=
  .obj (Metric.all.map fun m ↦ (m.name, boundsJson (s.get m)))

def violationJson (v : Violation) : Json :=
  .obj
    [("rule", .str v.rule.name), ("severity", .str v.severity.name), ("file", .str v.file),
      ("line", .int v.line), ("column", .int v.column), ("function", .str v.function),
      ("value", .int v.value), ("warn", .int v.thresholds.warn), ("fail", .int v.thresholds.fail),
      ("message", .str v.message)]

def summaryJson (patterns : List String) (s : Settings) (o : Outcome) : Json :=
  .obj
    [("version", .str toolVersion), ("patterns", .arr (patterns.map .str)),
      ("thresholds", settingsJson s), ("passed", .bool (!o.hasErrors)),
      ("files_scanned", .int o.scanned), ("functions_analyzed", .int o.functions),
      ("errors", .int o.errors), ("warnings", .int o.warnings),
      ("violations", .arr (o.violations.map violationJson))]

def json (patterns : List String) (s : Settings) (o : Outcome) : String :=
  (summaryJson patterns s o).render

/-! ### SARIF -/

namespace Sarif

def version : String := "2.1.0"

def schema : String :=
  "https://raw.githubusercontent.com/oasis-tcs/sarif-spec/master/Schemata/sarif-schema-2.1.0.json"

def ruleName : Metric → String
  | .nestDepth => "NestingDepth"
  | .cyclo => "CyclomaticComplexity"
  | .params => "ParameterCount"
  | .fanOut => "FanOut"

def ruleSummary : Metric → String
  | .nestDepth => "Function nests control flow too deeply"
  | .cyclo => "Function has too many independent paths"
  | .params => "Function takes too many parameters"
  | .fanOut => "Function calls too many distinct functions"

def message (text : String) : Json := .obj [("text", .str text)]

def rule (m : Metric) : Json :=
  .obj
    [("id", .str m.name), ("name", .str (ruleName m)), ("shortDescription", message (ruleSummary m)),
      ("fullDescription", message m.description),
      ("defaultConfiguration", .obj [("level", .str "warning")])]

/-- The level of a result. -/
def level : Severity → String
  | .error => "error"
  | .warning => "warning"

/-- A path with slashes for backslashes. -/
def uri (file : String) : String :=
  String.ofList (file.toList.map fun c ↦ if c = '\\' then '/' else c)

def region (v : Violation) : Json :=
  .obj [("startLine", .int (max v.line 1 : Nat)), ("startColumn", .int (max v.column 1 : Nat))]

def location (v : Violation) : Json :=
  .obj [("physicalLocation",
    .obj [("artifactLocation", .obj [("uri", .str (uri v.file))]), ("region", region v)])]

def result (v : Violation) : Json :=
  .obj
    [("ruleId", .str v.rule.name), ("level", .str (level v.severity)), ("message", message v.message),
      ("locations", .arr [location v])]

def driver : Json :=
  .obj
    [("name", .str toolName), ("version", .str toolVersion), ("rules", .arr (Metric.all.map rule))]

def log (o : Outcome) : Json :=
  .obj
    [("version", .str version), ("$schema", .str schema),
      ("runs", .arr
        [.obj [("tool", .obj [("driver", driver)]), ("results", .arr (o.violations.map result))]])]

end Sarif

def sarif (o : Outcome) : String := (Sarif.log o).render

end GoComplexity.Report
