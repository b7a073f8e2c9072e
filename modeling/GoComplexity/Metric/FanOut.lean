import GoComplexity.Syntax.Import
import GoComplexity.Syntax.Walk

/-!
# Fan-out

The fan-out of a body is the number of distinct functions and methods that it calls, without
builtins, conversions and the standard library. What a call refers to is the answer of a resolver,
which is asked only about callees that are a name or a selector.
-/

namespace GoComplexity

open Syntax

/-- What the callee of a call refers to. -/
inductive Callee (S : Type) where
  /-- Nothing is known about the target. -/
  | unresolved
  | builtin
  /-- A type: the call is a conversion. -/
  | typeName
  /-- A function or method and the import path of its package, if known. -/
  | object (symbol : S) (package : Option String)
deriving DecidableEq

/-- The symbol of a callee that counts: an object outside the standard library. -/
def Callee.counted? {S : Type} : Callee S → Option S
  | .object symbol (some package) => if ImportPath.isStandard package then none else some symbol
  | .object symbol none => some symbol
  | _ => none

/-- The callee of a call that has a name or a selector in front of its arguments. -/
def Syntax.Node.callee? : Node → Option Expr
  | .expr (.call callee _) =>
    match callee with
    | .ident _ => some callee
    | .selector _ _ => some callee
    | _ => none
  | _ => none

/-- The callees of a body that a resolver is asked about, in pre-order. -/
def Syntax.Block.callees (b : Block) : List Expr := b.nodes.filterMap Node.callee?

/-- The number of distinct counted symbols among the callees of a body. -/
def Syntax.Block.fanOut {S : Type} [BEq S] (b : Block) (resolve : Expr → Callee S) : Nat :=
  (b.callees.filterMap fun callee ↦ (resolve callee).counted?).eraseDups.length

end GoComplexity
