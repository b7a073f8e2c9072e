import GoComplexity.Syntax.File

/-!
# The scope of a package

A scope collects what the files of one package declare at package level. A method is recorded with
the type of its receiver without stars.
-/

namespace GoComplexity

open Syntax

structure Scope where
  /-- The import path of the package. -/
  path : String
  functions : List String
  vars : List String
  types : List String
  /-- Receiver type and name of each method. -/
  methods : List (String × String)
deriving DecidableEq

namespace Scope

def empty (path : String) : Scope := ⟨path, [], [], [], []⟩

/-- The receiver type that a display form such as `*T` stands for. -/
def receiverBase (receiver : String) : String :=
  String.ofList (receiver.toList.dropWhile (· == '*'))

/-- The name declared by a function without receiver. -/
def function? (f : FunctionDecl) : Option String :=
  match f.receiver with
  | none => some f.name
  | some _ => none

/-- The receiver type and name declared by a method. -/
def method? (f : FunctionDecl) : Option (String × String) :=
  f.receiver.map fun receiver ↦ (receiverBase receiver, f.name)

/-- The scope with the declarations of one more file. -/
def add (s : Scope) (file : SourceFile) : Scope :=
  { s with
    functions := s.functions ++ file.functions.filterMap function?
    vars := s.vars ++ file.vars
    types := s.types ++ file.types
    methods := s.methods ++ file.functions.filterMap method? }

def ofFiles (path : String) (files : List SourceFile) : Scope := files.foldl add (empty path)

def hasMethod (s : Scope) (receiver name : String) : Bool := s.methods.contains (receiver, name)

end Scope

end GoComplexity
