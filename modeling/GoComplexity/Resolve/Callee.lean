import GoComplexity.Metric.FanOut
import GoComplexity.Resolve.Scope

/-!
# Resolution of callees

Callees are resolved from declarations alone. A name bound inside the function comes first, then the
package, then the predeclared names. A selector on a bound name is a method of the type that the
binding shows; on any other name it is a member of an import or a method expression.
-/

namespace GoComplexity

open Syntax

/-- The identity of a function, method or function value. -/
structure SymbolId where
  /-- The import path of the package; empty for the predeclared `error`. -/
  package : String
  /-- `f`, `T.m`, or `name@line:column` for a function value. -/
  name : String
deriving DecidableEq

def SymbolId.display (s : SymbolId) : String := s.package ++ "." ++ s.name

namespace Resolve

def builtins : List String :=
  ["append", "cap", "clear", "close", "complex", "copy", "delete", "imag", "len", "make", "max",
    "min", "new", "panic", "print", "println", "real", "recover"]

def predeclaredTypes : List String :=
  ["any", "bool", "byte", "comparable", "complex64", "complex128", "error", "float32", "float64",
    "int", "int8", "int16", "int32", "int64", "rune", "string", "uint", "uint8", "uint16",
    "uint32", "uint64", "uintptr"]

/-- A member of the package with the given path. -/
def object (package name : String) : Callee SymbolId := .object ⟨package, name⟩ (some package)

end Resolve

/-- What a file sees: the scope of its package and its imports by local name. -/
structure FileView where
  scope : Scope
  /-- Local name and path of each import, in source order. -/
  imports : List (String × String)

namespace FileView

open Resolve

def ofFile (scope : Scope) (file : SourceFile) : FileView :=
  ⟨scope, file.imports.filterMap fun i ↦ i.localName.map fun name ↦ (name, i.path)⟩

/-- The path behind a local import name; of two imports with one name the later counts. -/
def importPath? (v : FileView) (name : String) : Option String :=
  (v.imports.reverse.find? fun i ↦ i.1 == name).map (·.2)

/-- A name that the function does not bind. -/
def resolveName (v : FileView) (name : String) : Callee SymbolId :=
  if v.scope.functions.contains name || v.scope.vars.contains name then object v.scope.path name
  else if v.scope.types.contains name || predeclaredTypes.contains name then .typeName
  else if builtins.contains name then .builtin
  else .unresolved

/-- A selector on a name that the function does not bind: an import or a method expression. -/
def resolveQualified (v : FileView) (qualifier name : String) : Callee SymbolId :=
  match v.importPath? qualifier with
  | some path => object path name
  | none =>
    if v.scope.hasMethod qualifier name then object v.scope.path (qualifier ++ "." ++ name)
    else .unresolved

/-- A method of the named type `type`, which may be qualified. -/
def resolveMethodOf (v : FileView) (type name : String) : Callee SymbolId :=
  match Text.cut '.' type.toList with
  | some (qualifier, member) =>
    match v.importPath? (String.ofList qualifier) with
    | some path => object path (String.ofList member ++ "." ++ name)
    | none => .unresolved
  | none =>
    if type = "error" ∧ name = "Error" then .object ⟨"", "error.Error"⟩ none
    else if v.scope.hasMethod type name then object v.scope.path (type ++ "." ++ name)
    else .unresolved

/-- A selector on a bound name. -/
def resolveMethod (v : FileView) (binding : Binding) (name : String) : Callee SymbolId :=
  match binding.namedType with
  | some type => v.resolveMethodOf type name
  | none => .unresolved

/-- The binding of a name; of several the first counts. -/
def binding? (bindings : List Binding) (name : String) : Option Binding :=
  bindings.find? fun b ↦ b.name == name

/-- What a callee refers to inside a function with the given bindings. -/
def resolve (v : FileView) (bindings : List Binding) : Expr → Callee SymbolId
  | .ident name =>
    match binding? bindings name with
    | some b => object v.scope.path (b.name ++ "@" ++ b.pos.display)
    | none => v.resolveName name
  | .selector (.ident qualifier) name =>
    match binding? bindings qualifier with
    | some b => v.resolveMethod b name
    | none => v.resolveQualified qualifier name
  | _ => .unresolved

end FileView

end GoComplexity
