import GoComplexity.Source.Text
import GoComplexity.Syntax.File

/-!
# Parameter lists

In a list such as `(a, b int)` a name may have been read as a type of its own. If any parameter is
named, such bare identifiers belong to the group that follows them.
-/

namespace GoComplexity.Source.Lower

open Syntax

/-- A text that has the form of an identifier. -/
def isIdentifier : List Char → Bool
  | [] => false
  | c :: cs => (Text.isAlphabetic c || c == '_') &&
    cs.all fun c ↦ Text.isAlphanumeric c || c == '_'

/-- An unnamed group whose type could be a name. -/
def isBare (g : ParamGroup) : Bool :=
  g.names.isEmpty && !g.variadic && isIdentifier g.type.toList

/-- Hands the pending names to the next group that is not bare; those left over stay unnamed. -/
def foldBare (pending : List String) : List ParamGroup → List ParamGroup
  | [] => pending.map fun type ↦ ⟨[], type, false⟩
  | g :: groups =>
    if isBare g then foldBare (pending ++ [g.type]) groups
    else { g with names := pending ++ g.names } :: foldBare [] groups

/-- The groups with bare identifiers folded into named ones. -/
def normalizeGroups (groups : List ParamGroup) : List ParamGroup :=
  if groups.all fun g ↦ g.names.isEmpty then groups else foldBare [] groups

/-- The group that one entry of a parameter list declares. -/
def paramGroup? (source : ByteArray) (t : Tree) : Option ParamGroup :=
  let names := (t.children.filter fun c ↦ c.role == some .name).map (Tree.text source)
  let type := ((t.child? .type).map (Tree.text source)).getD ""
  match t.kind? with
  | some .parameterDecl => some ⟨names, type, false⟩
  | some .variadicParameter => some ⟨names, type, true⟩
  | _ => none

/-- The parameter groups of a parameter list. -/
def paramGroups (source : ByteArray) (t : Tree) : List ParamGroup :=
  normalizeGroups (t.children.filterMap (paramGroup? source))

/-- The receiver type as diagnostics show it, without type arguments. -/
def receiverType (source : ByteArray) (t : Tree) : String :=
  match t with
  | .leaf _ token => match token.kind with
    | .word w => w
    | _ => "?"
  | .node _ .pointerType children =>
    "*" ++ match children with
      | [_, inner] => if inner.comments.isEmpty then receiverType source inner else "?"
      | _ => "?"
  | .node _ .genericType children =>
    match children with
    | base :: _ => receiverType source base
    | [] => "?"
  | _ => "?"

/-- The receiver type of a receiver list. -/
def receiver? (source : ByteArray) (t : Tree) : Option String := do
  let decl ← t.children.find? (Tree.hasKind · .parameterDecl)
  let type ← decl.child? .type
  return receiverType source type

end GoComplexity.Source.Lower
