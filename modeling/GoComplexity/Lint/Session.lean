import GoComplexity.Workspace.Config
import GoComplexity.Workspace.Load

/-!
# One run of the linter

Configuration, thresholds and excluded paths are settled before anything is loaded, in this order,
and the first error of these or of the load ends the run.
-/

namespace GoComplexity

/-- What a run is asked to do. -/
structure LintRequest where
  patterns : List String
  /-- A configuration file to use in place of one with a default name. -/
  config : Option String
  tests : Bool
  flags : Layer
deriving DecidableEq

structure LintResult where
  settings : Settings
  packages : List Package
  outcome : Outcome

inductive LintError where
  | config (e : ConfigError)
  | thresholds (e : ThresholdError)
  | excluded (e : Glob.PatternError)
  | load (e : LoadError)
deriving DecidableEq

namespace LintError

def message : LintError → String
  | .config e => e.message
  | .thresholds e => e.message
  | .excluded e => e.message
  | .load e => e.message

/-- The error behind this one, if it comes from reading a file or a pattern. -/
def cause? : LintError → Option String
  | .config e => e.cause?
  | .thresholds _ => none
  | .excluded e => some e.cause
  | .load e => e.cause?

/-- The message followed by the error behind it. -/
def chain (e : LintError) : String := Text.join ": " (e.message :: e.cause?.toList)

end LintError

/-- Runs the linter in a workspace. -/
def Workspace.lint (ws : Workspace) (r : LintRequest) : Except LintError LintResult := do
  let config ← (ws.loadConfig r.config).mapError .config
  let settings ← (Settings.resolve config.thresholds r.flags).mapError .thresholds
  let engine ← (Engine.ofSettings settings).mapError .thresholds
  let excluded ← (Glob.PatternSet.parse config.excludedPaths).mapError .excluded
  let packages ← (ws.load ⟨r.tests || config.wantsTests, excluded⟩ r.patterns).mapError .load
  return ⟨engine.settings, packages, runPackages engine.settings packages⟩

end GoComplexity
