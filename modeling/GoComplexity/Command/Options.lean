import GoComplexity.Lint.Session

/-!
# Options of the command line

Some options take a value, the others are switches. An option has a long name, and a few have a
letter as well. Everything else on the command line is a pattern.
-/

namespace GoComplexity.Command

inductive Format where
  | text
  | pretty
  | json
  | sarif
deriving DecidableEq

namespace Format

def all : List Format := [.text, .pretty, .json, .sarif]

def name : Format → String
  | .text => "text"
  | .pretty => "pretty"
  | .json => "json"
  | .sarif => "sarif"

def ofName? (s : String) : Option Format := all.find? fun f ↦ f.name == s

end Format

/-- An option that takes a value. -/
inductive Setting where
  | warn (m : Metric)
  | fail (m : Metric)
  | config
  | format
deriving DecidableEq

/-- An option without value. -/
inductive Switch where
  | tests
  | verbose
  | help
  | version
deriving DecidableEq

inductive Flag where
  | setting (s : Setting)
  | switch (s : Switch)
deriving DecidableEq

namespace Flag

def all : List Flag :=
  Metric.all.flatMap (fun m ↦ [.setting (.warn m), .setting (.fail m)]) ++
    [.setting .config, .setting .format, .switch .tests, .switch .verbose, .switch .help,
      .switch .version]

def longName : Flag → String
  | .setting (.warn m) => m.name ++ ".warn"
  | .setting (.fail m) => m.name ++ ".fail"
  | .setting .config => "config"
  | .setting .format => "format"
  | .switch .tests => "tests"
  | .switch .verbose => "verbose"
  | .switch .help => "help"
  | .switch .version => "version"

def letter? : Flag → Option Char
  | .setting .config => some 'c'
  | .setting .format => some 'f'
  | .switch .verbose => some 'v'
  | .switch .help => some 'h'
  | .switch .version => some 'V'
  | _ => none

def ofLongName? (name : List Char) : Option Flag :=
  all.find? fun f ↦ f.longName == String.ofList name

def ofLetter? (c : Char) : Option Flag := all.find? fun f ↦ f.letter? == some c

end Flag

/-- Everything that a command line says. -/
structure Options where
  patterns : List String
  config : Option String
  format : Format
  tests : Bool
  verbose : Bool
  /-- The bounds given by option, by metric. -/
  warn : List (Metric × Int)
  fail : List (Metric × Int)
deriving DecidableEq

namespace Options

def default : Options := ⟨[], none, .text, false, false, [], []⟩

/-- The layer of thresholds that the options set, in report order. -/
def flags (o : Options) : Layer :=
  (Metric.all.map fun m ↦ (m, ⟨o.warn.lookup m, o.fail.lookup m⟩)).filter fun entry ↦
    !entry.2.isEmpty

def request (o : Options) : LintRequest := ⟨o.patterns, o.config, o.tests, o.flags⟩

end Options

end GoComplexity.Command
