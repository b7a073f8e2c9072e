import GoComplexity.Syntax.Position

/-!
# Statements and expressions of a function body

Only the forms that a metric looks at have a constructor of their own. Every other expression is
`Expr.other` with its sub-expressions, and every other statement is `Stmt.simple`, so calls and
function literals inside them stay reachable.
-/

namespace GoComplexity.Syntax

inductive LoopKind where
  | counted
  | range
deriving DecidableEq

inductive SwitchKind where
  | expression
  | type
deriving DecidableEq

/-- The forms of statements without statement lists of their own. -/
inductive SimpleKind where
  | expression
  | assign
  | incDec
  | send
  | receive
  | go
  | defer
  | decl
  | branch
  | empty
deriving DecidableEq

inductive LitKind where
  | int
  | float
  | imag
  | char
  | string
deriving DecidableEq

mutual

inductive Expr where
  /-- Identifiers, among them `nil`, `true`, `false` and `iota`. -/
  | ident (name : String)
  /-- A literal with its source text. -/
  | lit (kind : LitKind) (text : String)
  /-- A composite literal; nested literals may leave out the type. -/
  | composite (type : Option Expr) (elements : List Expr)
  | call (callee : Expr) (args : List Expr)
  | selector (operand : Expr) (name : String)
  | funcLit (body : Block)
  | binary (op : String) (left right : Expr)
  /-- Any other form, reduced to its sub-expressions. -/
  | other (children : List Expr)

/-- A brace-enclosed statement list with the position of its opening brace. -/
inductive Block where
  | mk (lbrace : Position) (stmts : List Stmt)

/-- An `if`, at statement level or after `else`. -/
inductive Conditional where
  | mk (pos : Position) (init : Option Stmt) (cond : Expr) (body : Block) (alternative : Alternative)

/-- What follows the first block of a conditional. -/
inductive Alternative where
  | absent
  | elseIf (next : Conditional)
  | elseBlock (body : Block)

inductive Stmt where
  | cond (c : Conditional)
  | loop (pos : Position) (kind : LoopKind) (header : List Expr) (body : Block)
  | switch (pos : Position) (kind : SwitchKind) (init : Option Stmt) (tag : Option Expr)
      (body : Block)
  | select (pos : Position) (body : Block)
  /-- A clause of a switch; the default clause has an empty list. -/
  | case (pos : Position) (list : List Expr) (body : List Stmt)
  /-- A clause of a select; the default clause has no operation. -/
  | comm (pos : Position) (operation : Option Stmt) (body : List Stmt)
  | block (b : Block)
  /-- A label; one at the end of a list labels nothing. -/
  | labeled (pos : Position) (label : String) (stmt : Option Stmt)
  | ret (pos : Position) (results : List Expr)
  | simple (pos : Position) (kind : SimpleKind) (exprs : List Expr)

end

deriving instance Inhabited for Expr, Block, Alternative, Conditional, Stmt

def Block.lbrace : Block → Position
  | .mk pos _ => pos

def Block.stmts : Block → List Stmt
  | .mk _ stmts => stmts

namespace Conditional

def pos : Conditional → Position
  | .mk pos _ _ _ _ => pos

def init : Conditional → Option Stmt
  | .mk _ init _ _ _ => init

def cond : Conditional → Expr
  | .mk _ _ cond _ _ => cond

def body : Conditional → Block
  | .mk _ _ _ body _ => body

def alternative : Conditional → Alternative
  | .mk _ _ _ _ alternative => alternative

end Conditional

/-- Where a statement starts; a block starts at its brace. -/
def Stmt.pos : Stmt → Position
  | .cond c => c.pos
  | .loop pos .. => pos
  | .switch pos .. => pos
  | .select pos .. => pos
  | .case pos .. => pos
  | .comm pos .. => pos
  | .block b => b.lbrace
  | .labeled pos .. => pos
  | .ret pos .. => pos
  | .simple pos .. => pos

def Expr.ident? : Expr → Option String
  | .ident name => some name
  | _ => none

end GoComplexity.Syntax
