import GoComplexity.Command.Arguments
import GoComplexity.Report.Pretty

/-!
# Running a command line

A run answers with an exit code and what it writes. Reports go to the standard output, except for
the line report, which goes to the standard error like every diagnostic.
-/

namespace GoComplexity.Command

structure Reply where
  exitCode : Nat
  out : String
  err : String
deriving DecidableEq

def usage : String := "Usage: " ++ Report.toolName ++ " [OPTIONS] [PATTERNS]...\n"

/-- One line of the help text. -/
def helpLine (option meaning : String) : String := "  " ++ Report.Pretty.pad 24 option ++ meaning ++ "\n"

def metricNoun : Metric → String
  | .nestDepth => "nesting depth"
  | .cyclo => "cyclomatic complexity"
  | .params => "parameter count"
  | .fanOut => "fan-out"

def help : String :=
  "Complexity linter for Go\n\n" ++ usage ++ "\nOptions:\n" ++
    String.join (Metric.all.map fun m ↦
      helpLine ("--" ++ m.name ++ ".warn <N>") ("Warn above this " ++ metricNoun m) ++
        helpLine ("--" ++ m.name ++ ".fail <N>") ("Fail above this " ++ metricNoun m)) ++
    helpLine "-c, --config <FILE>" "Configuration file" ++
    helpLine "-f, --format <FORMAT>" ("Output format: " ++ Text.join ", " (Format.all.map Format.name)) ++
    helpLine "--tests" "Also analyze test files" ++
    helpLine "-v, --verbose" "Log progress" ++
    helpLine "-h, --help" "Print help" ++
    helpLine "-V, --version" "Print version"

def version : String := Report.toolName ++ " " ++ Report.toolVersion ++ "\n"

namespace Refusal

def message : Refusal → String
  | .unknownArgument => "unexpected argument"
  | .invalidValue => "missing or invalid value"
  | .notNumber => "value is not a number"
  | .givenTwice => "option given more than once"
  | .unneededValue => "option takes no value"
  | .helpWanted => "help wanted"
  | .versionWanted => "version wanted"

def reply : Refusal → Reply
  | .helpWanted => ⟨0, help, ""⟩
  | .versionWanted => ⟨0, version, ""⟩
  | e => ⟨2, "", "error: " ++ e.message ++ "\n\n" ++ usage⟩

end Refusal

/-- The reply to a run that came to its end. It fails if there are errors among the violations. -/
def report (color : Bool) (o : Options) (r : LintResult) : Reply :=
  let exitCode := if r.outcome.hasErrors then 1 else 0
  match o.format with
  | .text => ⟨exitCode, "", Report.lines r.outcome⟩
  | .pretty => ⟨exitCode, Report.pretty color o.patterns r.settings r.outcome, ""⟩
  | .json => ⟨exitCode, Report.json o.patterns r.settings r.outcome ++ "\n", ""⟩
  | .sarif => ⟨exitCode, Report.sarif r.outcome ++ "\n", ""⟩

/-- Runs the linter with options that were read. Without patterns there is nothing to run. -/
def lint (ws : Workspace) (color : Bool) (o : Options) : Reply :=
  if o.patterns.isEmpty then ⟨1, "", usage⟩
  else match ws.lint o.request with
    | .error e => ⟨1, "", "Error: " ++ e.chain ++ "\n"⟩
    | .ok r => report color o r

/-- Runs a command line in a workspace. -/
def run (ws : Workspace) (color : Bool) (args : List String) : Reply :=
  match Options.read args with
  | .error e => e.reply
  | .ok o => lint ws color o

end GoComplexity.Command
