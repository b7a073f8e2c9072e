import GoComplexity.Syntax.Basic
import GoComplexity.Syntax.Binding
import GoComplexity.Syntax.Import

/-!
# Source files and function declarations
-/

namespace GoComplexity.Syntax

/-- Parameters that share a declared type; no names at all mean one unnamed parameter. -/
structure ParamGroup where
  names : List String
  type : String
  variadic : Bool
deriving DecidableEq

/-- A function or method declaration. -/
structure FunctionDecl where
  name : String
  /-- The receiver type of a method as shown in diagnostics. -/
  receiver : Option String
  pos : Position
  params : List ParamGroup
  /-- Absent for a declaration without a body. -/
  body : Option Block
  /-- The comments directly above the declaration. -/
  doc : List String
  /-- The names bound inside the declaration, in source order. -/
  bindings : List Binding

/-- The name used in diagnostics, with the receiver type before a method name. -/
def FunctionDecl.displayName (f : FunctionDecl) : String :=
  match f.receiver with
  | some receiver => receiver ++ "." ++ f.name
  | none => f.name

structure SourceFile where
  path : String
  package : String
  imports : List Import
  /-- Names of the types declared at package level. -/
  types : List String
  /-- Names of the variables declared at package level. -/
  vars : List String
  functions : List FunctionDecl

end GoComplexity.Syntax
