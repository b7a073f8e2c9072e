import GoComplexity.Syntax.Position
import GoComplexity.Text.Blank
import GoComplexity.Text.Letter
import GoComplexity.Text.Split

/-!
# Names bound inside a function

A binding keeps the source text of the type of what it binds. From that text alone one can tell
whether the value is a function and which named type, if any, its methods belong to.
-/

namespace GoComplexity.Syntax

/-- A name bound by a receiver, parameter, result or local variable. -/
structure Binding where
  name : String
  /-- The text of the type: declared, or evident from the initializer; empty if unknown. -/
  type : String
  pos : Position
deriving DecidableEq

namespace TypeText

open Text

/-- A text of one or more letters, digits and underscores. -/
def isName (cs : List Char) : Bool := !cs.isEmpty && cs.all fun c ↦ isAlphanumeric c || c == '_'

/-- Words that start a type without naming one. -/
def unnamed : List String := ["func", "map", "chan", "struct", "interface"]

def isFunc (type : String) : Bool :=
  type == "func" || (after? "func(".toList type.toList).isSome

/-- The text without leading stars, blanks around it and type arguments. -/
def base (type : List Char) : List Char :=
  (trim (type.dropWhile (· == '*'))).takeWhile (· != '[')

/-- The named type behind a type text: `T` or `q.T`. -/
def named? (type : String) : Option String :=
  let b := base type.toList
  match cut '.' b with
  | some (qualifier, name) => if isName qualifier && isName name then some (String.ofList b) else none
  | none => if isName b && !unnamed.contains (String.ofList b) then some (String.ofList b) else none

end TypeText

/-- Whether the bound value is a function. -/
def Binding.isFunc (b : Binding) : Bool := TypeText.isFunc b.type

/-- The named type of the bound value, without pointers and type arguments. -/
def Binding.namedType (b : Binding) : Option String := TypeText.named? b.type

end GoComplexity.Syntax
