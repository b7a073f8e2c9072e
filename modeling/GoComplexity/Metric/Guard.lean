import GoComplexity.Syntax.Basic
import GoComplexity.Text.Decimal
import GoComplexity.Text.Split

/-!
# Error guards

An error guard is a conditional of the form `if err != nil { return zero, ..., err }`: it compares a
name with `nil`, has no alternative, and only returns zero values followed by that name or by a call.
Guards are exempt from nesting depth and cyclomatic complexity. The test looks at the form alone.
-/

namespace GoComplexity

open Syntax Text

/-- Whether the text of a floating-point literal denotes zero. -/
def isZeroFloat (text : String) : Bool :=
  let digits := text.toList.filter (· != '_')
  match digits with
  | '0' :: 'x' :: rest => isZeroMantissa rest
  | '0' :: 'X' :: rest => isZeroMantissa rest
  | _ => isZeroDecimal digits
where
  /-- A hexadecimal mantissa with a zero digit and no other digit. -/
  isZeroMantissa (rest : List Char) : Bool :=
    let mantissa := rest.takeWhile fun c ↦ c != 'p' && c != 'P'
    mantissa.contains '0' && mantissa.all fun c ↦ c == '0' || c == '.'

/-- Expressions that spell a zero value. -/
def Syntax.Expr.isZeroValue : Expr → Bool
  | .ident name => name == "nil" || name == "false"
  | .lit .int text => text == "0"
  | .lit .float text => isZeroFloat text
  | .lit .string text => text == "\"\"" || text == "\x60\x60"
  | .composite _ elements => elements.isEmpty
  | _ => false

/-- The name that a condition compares with `nil` for inequality. -/
def Syntax.Expr.notNil? : Expr → Option String
  | .binary op left right =>
    if op ≠ "!=" then none
    else match left.ident?, right.ident? with
      | some x, some y => if y = "nil" then some x else if x = "nil" then some y else none
      | _, _ => none
  | _ => none

/-- Whether the last result of a guard on `name` is `name` itself or a call. -/
def Syntax.Expr.propagates (name : String) : Expr → Bool
  | .ident last => last == name
  | .call _ _ => true
  | _ => false

/-- Whether the results of a return hand on the error held by `name`. -/
def propagatesError (name : String) (results : List Expr) : Bool :=
  match results.getLast? with
  | some last => last.propagates name && results.dropLast.all Expr.isZeroValue
  | none => false

/-- Whether a conditional is an error guard. -/
def Syntax.Conditional.isGuard (c : Conditional) : Bool :=
  match c.cond.notNil?, c.alternative, c.body.stmts with
  | some name, .absent, [.ret _ results] => propagatesError name results
  | _, _, _ => false

end GoComplexity
