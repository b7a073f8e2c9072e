import GoComplexity.Source.Params

/-!
# The names that a declaration binds

Names are collected in source order from parameter lists, variable declarations and the headers that
declare variables. Scopes are not told apart. Parameter names inside type literals bind nothing.
-/

namespace GoComplexity.Source.Lower

open Syntax

variable (source : ByteArray)

/-- The items of an expression list, or the tree itself. -/
def listItems (t : Tree) : List Tree :=
  if t.hasKind .expressionList then t.children.filter Tree.isNamed else [t]

/-- The items of the child with a role. -/
def roleItems (t : Tree) (r : Role) : List Tree := ((t.child? r).map listItems).getD []

/-- The type of a composite literal. -/
def literalType (t : Tree) : String := ((t.child? .type).map (Tree.text source)).getD ""

/-- The type that an initializer shows by its form; empty if it shows none. -/
def evidentType (value : Tree) : String :=
  match value.kind? with
  | some .composite => literalType source value
  | some .unary =>
    match value.child? .operator, value.child? .operand with
    | some operator, some operand =>
      if operator.isMark "&" && operand.hasKind .composite then "*" ++ literalType source operand
      else ""
    | _, _ => ""
  | some .funcLiteral => "func"
  | some .call =>
    match value.child? .callee, (value.child? .arguments).bind Tree.firstNamed? with
    | some callee, some arg =>
      if callee.text source == "new" then "*" ++ arg.text source else ""
    | _, _ => ""
  | _ => ""

/-- A binding at the place of its name. -/
def bindingAt (name : Tree) (type : String) : Binding := ⟨name.text source, type, name.start⟩

/-- The parameters of a list, all bound at its opening parenthesis. -/
def paramBindings (t : Tree) : List Binding :=
  (paramGroups source t).flatMap fun g ↦
    let type := if g.variadic then "[]" ++ g.type else g.type
    g.names.map fun name ↦ ⟨name, type, t.start⟩

/-- The variables of a specification, with the declared type or that of their initializers. -/
def varBindings (t : Tree) : List Binding :=
  let names := t.children.filter fun c ↦ c.role == some .name
  let values := roleItems t .value
  names.zipIdx.map fun (name, i) ↦
    bindingAt source name <| match t.child? .type with
      | some type => type.text source
      | none => ((values[i]?).map (evidentType source)).getD ""

/-- The variables of a short declaration; a call with several results shows no types. -/
def shortBindings (t : Tree) : List Binding :=
  let names := roleItems t .left
  let values := roleItems t .right
  if names.length = values.length then
    (names.zip values).map fun (name, value) ↦ bindingAt source name (evidentType source value)
  else names.map fun name ↦ bindingAt source name ""

/-- The names on the left of a header, with unknown types. -/
def leftBindings (t : Tree) : List Binding :=
  (roleItems t .left).map fun name ↦ bindingAt source name ""

/-- The names that a node binds by itself. -/
def ownBindings (t : Tree) : List Binding :=
  match t.kind? with
  | some .parameterList => paramBindings source t
  | some .varSpec => varBindings source t
  | some .shortVarDecl => shortBindings source t
  | some .rangeClause => if t.children.any (Tree.isMark · ":=") then leftBindings source t else []
  | some .receiveStmt => if t.children.any (Tree.isMark · ":=") then leftBindings source t else []
  | some .typeSwitch => leftBindings source t
  | _ => []

/-- Kinds inside which no name is bound. -/
def isTypeLiteral (k : Kind) : Bool :=
  k == .functionType || k == .interfaceType || k == .structType

mutual

/-- The names bound at a tree and below it, blank ones included. -/
def allBindings : Tree → List Binding
  | .leaf .. => []
  | .node role kind children =>
    if isTypeLiteral kind then []
    else ownBindings source (.node role kind children) ++ allBindingsOf children

def allBindingsOf : List Tree → List Binding
  | [] => []
  | t :: ts => allBindings t ++ allBindingsOf ts

end

/-- The names that a declaration binds; the blank identifier is no name. -/
def bindings (t : Tree) : List Binding := (allBindings source t).filter fun b ↦ b.name != "_"

end GoComplexity.Source.Lower
