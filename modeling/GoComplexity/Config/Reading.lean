import GoComplexity.Config.Basic
import GoComplexity.Text.Blank
import GoComplexity.Yaml.Document

/-!
# Reading a configuration

A configuration is a mapping. Where nothing is written for a mapping or a list, it is empty. Keys of
the top level that are not known are skipped; names of metrics and bounds have to be known. A plain
scalar is read as a number or a truth value only where one is wanted, so any scalar is a path.
-/

namespace GoComplexity.Config

open Yaml

/-! ### Scalars -/

def readDigits? (base : Nat) (cs : List Char) : Option Nat :=
  if cs.isEmpty then none
  else cs.foldlM (fun n c ↦ (hexValue? c).bind fun d ↦ if d < base then some (base * n + d) else none) 0

/-- Reads an integer without sign. A leading zero needs the mark of another base after it. -/
def readMagnitude? : List Char → Option Nat
  | '0' :: 'x' :: cs => readDigits? 16 cs
  | '0' :: 'o' :: cs => readDigits? 8 cs
  | '0' :: 'b' :: cs => readDigits? 2 cs
  | '0' :: _ :: _ => none
  | cs => readDigits? 10 cs

/-- Reads a signed 64-bit integer. -/
def readInteger? : List Char → Option Int
  | '-' :: cs => (readMagnitude? cs).bind fun n ↦ Text.fit64 (-(n : Int))
  | '+' :: cs => (readMagnitude? cs).bind fun n ↦ Text.fit64 n
  | cs => (readMagnitude? cs).bind fun n ↦ Text.fit64 n

def readBool? (text : String) : Option Bool :=
  if ["true", "True", "TRUE"].contains text then some true
  else if ["false", "False", "FALSE"].contains text then some false
  else none

def isNull (text : String) : Bool := ["~", "null", "Null", "NULL"].contains text

/-- The full form of a standard tag. -/
def standardTag (name : String) : String := "tag:yaml.org,2002:" ++ name

/-- The text of a scalar that may stand for a value of a standard tag: plain ones, and literal ones
that say so. -/
def valueText? (tag : String) : Node → Option String
  | .scalar _ .plain text => some text
  | .scalar (some t) .literal text => if t == standardTag tag then some text else none
  | _ => none

def integer? (n : Node) : Option Int := (valueText? "int" n).bind fun text ↦ readInteger? text.toList

def bool? (n : Node) : Option Bool := (valueText? "bool" n).bind readBool?

/-- A value or none: a plain scalar without content or with a null is none. -/
def optional? {α : Type} (value? : Node → Option α) (n : Node) : Option (Option α) :=
  match n with
  | .scalar none .plain text => if text == "" || isNull text then some none else (value? n).map some
  | .scalar (some tag) .plain text =>
    if tag == standardTag "null" then (if isNull text then some none else none)
    else (value? n).map some
  | _ => (value? n).map some

def text? : Node → Option String
  | .scalar _ _ text => some text
  | _ => none

/-! ### Collections -/

section

variable (d : Document)

def entries? (n : Node) : Option (List (Node × Node)) :=
  match d.follow n with
  | .mapping entries => some entries
  | .scalar _ .plain "" => some []
  | _ => none

def items? (n : Node) : Option (List Node) :=
  match d.follow n with
  | .sequence items => some items
  | .scalar _ .plain "" => some []
  | _ => none

/-- The entries of a mapping whose keys are names. -/
def fields? (n : Node) : Option (List (String × Node)) := do
  (← entries? d n).mapM fun (key, value) ↦ (text? (d.follow key)).map fun name ↦ (name, value)

/-- The value of a field that occurs at most once; one that does not occur is absent. -/
def field? (fields : List (String × Node)) (name : String) : Option Node :=
  match fields.filter (·.1 == name) with
  | [] => some .absent
  | [(_, value)] => some value
  | _ => none

/-- The metric that a key names, by its text or by a local tag without content. -/
def metric? (n : Node) : Option Metric :=
  match d.follow n with
  | .scalar tag style text =>
    match (tag.map String.toList) with
    | some ('!' :: name) =>
      if style == .plain && (text == "" || isNull text) then Metric.ofName? (String.ofList name)
      else none
    | _ => Metric.ofName? text
  | _ => none

def bounds? (n : Node) : Option PartialThresholds := do
  let fields ← fields? d n
  if fields.all fun f ↦ ["warn", "fail"].contains f.1 then
    let warn ← optional? integer? (d.follow (← field? fields "warn"))
    let fail ← optional? integer? (d.follow (← field? fields "fail"))
    return ⟨warn, fail⟩
  else none

def thresholds? (n : Node) : Option Layer := do
  let entries ← (← entries? d n).mapM fun (key, value) ↦ do
    return (← metric? d key, ← bounds? d value)
  return layerOf entries

def paths? (n : Node) : Option (List String) := do
  (← items? d n).mapM fun item ↦ text? (d.follow item)

def ofDocument? : Option Config := do
  let fields ← fields? d d.root
  let thresholds ← thresholds? d (← field? fields "thresholds")
  let includeTests ← optional? bool? (d.follow (← field? fields "include_test_files"))
  let excludedPaths ← paths? d (← field? fields "excluded_paths")
  return ⟨thresholds, includeTests, excludedPaths⟩

end

/-- Reads the text of a configuration file. A blank text is the empty configuration. -/
def ofText? (text : String) : Option Config :=
  if (Text.trim text.toList).isEmpty then some empty else (read? text).bind ofDocument?

end GoComplexity.Config
