import GoComplexity.Command.Options

/-!
# Reading arguments

Arguments are read from left to right. The value of an option stands after `=`, directly after its
letter, or in the next argument, unless that is an option itself. Letters can share one argument.
After `--` everything is a pattern, and so is a lone hyphen or a negative number.

A value in an argument of its own is looked at when the next option or pattern comes, so what is
wrong with that argument can be found first. No option may be given twice.
-/

namespace GoComplexity.Command

/-- Why a command line is not run. -/
inductive Refusal where
  | unknownArgument
  /-- A value is missing, empty or none of the allowed ones. -/
  | invalidValue
  /-- A value is not a number. -/
  | notNumber
  | givenTwice
  /-- A switch is given a value. -/
  | unneededValue
  | helpWanted
  | versionWanted
deriving DecidableEq

/-- Whether digits, with a point and an exponent at most, follow a hyphen. -/
def isNumber (cs : List Char) : Bool :=
  let mantissa := cs.takeWhile (· != 'e')
  let whole := mantissa.takeWhile (· != '.')
  let fraction := (mantissa.dropWhile (· != '.')).tail
  let digits := whole.all Text.isDigit && fraction.all Text.isDigit
  match cs.dropWhile (· != 'e') with
  | [] => digits && (!whole.isEmpty || mantissa.isEmpty)
  | _ :: exponent => digits && !whole.isEmpty && !exponent.isEmpty && exponent.all Text.isDigit

structure Reader where
  options : Options
  /-- The options that have taken effect. -/
  given : List Flag
  /-- The latest option with a value, if it has yet to take effect, and its value if it has come. -/
  waiting : Option (Setting × Option String)
  /-- Whether only patterns follow. -/
  patternsOnly : Bool

namespace Reader

def start : Reader := ⟨.default, [], none, false⟩

/-- Marks an option as given; once is all that is allowed. -/
def mark (r : Reader) (f : Flag) : Except Refusal Reader :=
  if r.given.contains f then .error .givenTwice else .ok { r with given := f :: r.given }

/-- The options with a value set. -/
def assign (o : Options) (s : Setting) (value : String) : Except Refusal Options :=
  match s with
  | .warn m =>
    match Text.readInt64? value.toList with
    | some n => .ok { o with warn := (m, n) :: o.warn }
    | none => .error .notNumber
  | .fail m =>
    match Text.readInt64? value.toList with
    | some n => .ok { o with fail := (m, n) :: o.fail }
    | none => .error .notNumber
  | .config => if value.isEmpty then .error .invalidValue else .ok { o with config := some value }
  | .format =>
    match Format.ofName? value with
    | some f => .ok { o with format := f }
    | none => .error .invalidValue

def set (r : Reader) (s : Setting) (value : String) : Except Refusal Reader := do
  let r ← r.mark (.setting s)
  return { r with options := ← assign r.options s value }

/-- Lets the waiting option take effect. -/
def settle (r : Reader) : Except Refusal Reader :=
  match r.waiting with
  | none => .ok r
  | some (_, none) => .error .invalidValue
  | some (s, some value) => { r with waiting := none }.set s value

def turnOn (r : Reader) (s : Switch) : Except Refusal Reader := do
  let r ← r.settle
  match s with
  | .help => throw .helpWanted
  | .version => throw .versionWanted
  | .tests =>
    let r ← r.mark (.switch s)
    return { r with options.tests := true }
  | .verbose =>
    let r ← r.mark (.switch s)
    return { r with options.verbose := true }

/-- An option with a value in its own argument, or one that waits for the next argument. -/
def take (r : Reader) (s : Setting) (attached : Option String) : Except Refusal Reader := do
  let r ← r.settle
  match attached with
  | some value => r.set s value
  | none => return { r with waiting := some (s, none) }

/-- A value of the waiting option, or else a pattern. -/
def plain (r : Reader) (arg : String) : Except Refusal Reader :=
  match r.waiting, r.patternsOnly with
  | some (s, none), false => .ok { r with waiting := some (s, some arg) }
  | _, _ => do
    let r ← r.settle
    return { r with options.patterns := r.options.patterns ++ [arg] }

/-- What follows two hyphens. -/
def long (r : Reader) (body : List Char) : Except Refusal Reader :=
  let (name, value) := match Text.cut '=' body with
    | some (name, value) => (name, some (String.ofList value))
    | none => (body, none)
  match Flag.ofLongName? name with
  | none => .error .unknownArgument
  | some (.setting s) => r.take s value
  | some (.switch s) => if value.isSome then .error .unneededValue else r.turnOn s

/-- The value that follows a letter in the same argument. -/
def attached? : List Char → Option String
  | [] => none
  | '=' :: cs => some (String.ofList cs)
  | cs => some (String.ofList cs)

/-- What follows one hyphen. -/
def letters (r : Reader) : List Char → Except Refusal Reader
  | [] => .ok r
  | c :: cs =>
    match Flag.ofLetter? c with
    | none => .error .unknownArgument
    | some (.setting s) => r.take s (attached? cs)
    | some (.switch s) => do letters (← r.turnOn s) cs

def argument (r : Reader) (arg : String) : Except Refusal Reader :=
  if r.patternsOnly then r.plain arg
  else match arg.toList with
    | ['-', '-'] => .ok { r with patternsOnly := true }
    | '-' :: '-' :: body => r.long body
    | '-' :: c :: cs => if isNumber (c :: cs) then r.plain arg else r.letters (c :: cs)
    | _ => r.plain arg

end Reader

/-- Reads the arguments of a command line. -/
def Options.read (args : List String) : Except Refusal Options := do
  let r ← args.foldlM Reader.argument .start
  return (← r.settle).options

end GoComplexity.Command
