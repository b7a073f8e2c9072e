import GoComplexity.Report.Plain

/-!
# The report for a terminal

Colours are control sequences around a text; without colours the same text is written bare.
-/

namespace GoComplexity.Report

/-- How a text stands out. -/
inductive Paint where
  | title
  | bold
  | dimmed
  | red
  | yellow
  | green
  | blue
deriving DecidableEq

/-- The parameters of the control sequence. -/
def Paint.code : Paint → String
  | .title => "1;36"
  | .bold => "1"
  | .dimmed => "2"
  | .red => "31"
  | .yellow => "33"
  | .green => "32"
  | .blue => "34"

namespace Pretty

section

variable (color : Bool)

def paint (p : Paint) (text : String) : String :=
  if color then "\x1b[" ++ p.code ++ "m" ++ text ++ "\x1b[0m" else text

/-- The text filled up with blanks to a width. -/
def pad (width : Nat) (text : String) : String :=
  text ++ String.ofList (List.replicate (width - text.length) ' ')

def thresholds (s : Settings) (m : Metric) : String :=
  m.name ++ " " ++ toString (s.get m).warn ++ "/" ++ toString (s.get m).fail

def header (patterns : List String) (s : Settings) : List String :=
  ["",
    "  " ++ paint color .title toolName ++ " v" ++ toolVersion,
    "",
    "  " ++ paint color .dimmed "Scanning:   " ++ " ".intercalate patterns,
    "  " ++ paint color .dimmed "Thresholds: " ++ "  ".intercalate (Metric.all.map (thresholds s)),
    ""]

def severityTag : Severity → String
  | .error => paint color .red "ERROR"
  | .warning => paint color .yellow "WARN "

def place (v : Violation) : String := ":" ++ toString v.line ++ ":" ++ toString v.column

def violation (v : Violation) : List String :=
  ["    " ++ severityTag color v.severity ++ "    " ++ paint color .dimmed (pad 12 v.rule.name) ++
      paint color .blue v.file ++ paint color .dimmed (place v),
    "            " ++ v.message,
    ""]

def violations (vs : List Violation) : List String :=
  if vs.isEmpty then []
  else
    ["  " ++ paint color .bold "Violations" ++ " (" ++ toString vs.length ++ "):", ""] ++
      vs.flatMap (violation color) ++ [""]

def totals (o : Outcome) : String :=
  toString o.scanned ++ " files, " ++ toString o.functions ++ " functions"

def status (o : Outcome) : List String :=
  ["  " ++ paint color .dimmed (totals o) ++ "  " ++ toString o.errors ++ " errors, " ++
      toString o.warnings ++ " warnings  " ++
      (if o.hasErrors then paint color .red "FAILED" else paint color .green "PASSED"),
    ""]

end

end Pretty

/-- Whether a variable of the environment says yes: it is set, and not to zero. -/
def isOn (value : Option String) : Bool := value.any (· != "0")

/-- Whether to use colours. `force` and `never` override the wish and the kind of the output. -/
def wantsColor (force never wish : Option String) (terminal : Bool) : Bool :=
  isOn force || (never.isNone && (wish.isNone || isOn wish) && terminal)

/-- The report for a terminal, line by line. -/
def prettyLines (color : Bool) (patterns : List String) (s : Settings) (o : Outcome) : List String :=
  Pretty.header color patterns s ++ Pretty.violations color o.violations ++ Pretty.status color o

def pretty (color : Bool) (patterns : List String) (s : Settings) (o : Outcome) : String :=
  String.join ((prettyLines color patterns s o).map (· ++ "\n"))

end GoComplexity.Report
