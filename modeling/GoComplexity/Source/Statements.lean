import GoComplexity.Source.Text

/-!
# From trees to statements and expressions

The trees of statements and expressions are reduced to the forms that the metrics look at. A kind
without a form of its own becomes `Expr.other` with its named children.
-/

namespace GoComplexity.Source.Lower

open Syntax

/-- The children that stand for a piece of syntax. -/
def named (t : Tree) : List (Tree.Part t) := t.parts.filter fun c ↦ c.1.isNamed

/-- The children that are statements of a list: those without a role. -/
def unassigned (t : Tree) : List (Tree.Part t) := (named t).filter fun c ↦ c.1.role.isNone

/-- The children of one of the given kinds. -/
def ofKinds (t : Tree) (kinds : List Kind) : List (Tree.Part t) :=
  t.parts.filter fun c ↦ kinds.any c.1.hasKind

/-- Where the braces of a switch or select open. -/
def bracePosition (t : Tree) : Position :=
  ((t.children.find? (Tree.isMark · "\x7b")).getD t).start

/-- The form of a statement without statement lists of its own. -/
def simpleKind : Kind → SimpleKind
  | .assignment => .assign
  | .shortVarDecl => .assign
  | .incStmt => .incDec
  | .decStmt => .incDec
  | .sendStmt => .send
  | .receiveStmt => .receive
  | .goStmt => .go
  | .deferStmt => .defer
  | .varDecl => .decl
  | .constDecl => .decl
  | .typeDecl => .decl
  | .breakStmt => .branch
  | .continueStmt => .branch
  | .gotoStmt => .branch
  | .fallthroughStmt => .branch
  | .emptyStmt => .empty
  | _ => .expression

variable (source : ByteArray)

/-- The expression of a token. -/
def token (t : Token) : Expr :=
  match t.kind with
  | .word w => .ident w
  | .lit kind => .lit kind (slice source t.start.offset t.stop.offset)
  | .mark _ => .other []

mutual

def expr (t : Tree) : Expr :=
  match t.token?, t.kind? with
  | some tok, _ => token source tok
  | none, some .composite =>
    .composite ((t.part? .type).map fun c ↦ expr c.1)
      (((t.part? .body).map fun c ↦ exprs c.1).getD [])
  | none, some .literalValue => .composite none (exprs t)
  | none, some .call => call t
  | none, some .conversion =>
    .call (roleExpr t .type) ((t.part? .operand).map fun c ↦ expr c.1).toList
  | none, some .selector =>
    .selector (roleExpr t .operand) (((t.child? .member).map (Tree.text source)).getD "")
  | none, some .funcLiteral =>
    .funcLit (((t.part? .body).map fun c ↦ block c.1).getD (.mk t.start []))
  | none, some .binary =>
    .binary (((t.child? .operator).map (Tree.text source)).getD "") (roleExpr t .left)
      (roleExpr t .right)
  | none, _ => .other (exprs t)
termination_by 4 * sizeOf t + 2

/-- The expression of the child with a role. -/
def roleExpr (t : Tree) (r : Role) : Expr :=
  ((t.part? r).map fun c ↦ expr c.1).getD (.other [])
termination_by 4 * sizeOf t

/-- The expressions of the named children. -/
def exprs (t : Tree) : List Expr := (named t).map fun c ↦ expr c.1
termination_by 4 * sizeOf t

/-- A call. With type arguments the callee is an instantiation, which is no plain name. -/
def call (t : Tree) : Expr :=
  match t.part? .callee, t.part? .arguments with
  | some callee, some arguments =>
    let callee' := expr callee.1
    .call (if (t.child? .typeArguments).isSome then .other [callee'] else callee') (exprs arguments.1)
  | _, _ => .other []
termination_by 4 * sizeOf t + 1

def block (t : Tree) : Block := .mk t.start (stmts t)
termination_by 4 * sizeOf t + 1

/-- The statements directly under a block or clause. -/
def stmts (t : Tree) : List Stmt := (unassigned t).map fun c ↦ stmt c.1
termination_by 4 * sizeOf t

/-- The named children as expressions, with expression lists flattened. -/
def flatExprs (t : Tree) : List Expr :=
  (named t).flatMap fun c ↦ if c.1.hasKind .expressionList then exprs c.1 else [expr c.1]
termination_by 4 * sizeOf t

def conditional (t : Tree) : Conditional :=
  let alternative : Alternative := match t.part? .alternative with
    | none => .absent
    | some c => if c.1.hasKind .ifStmt then .elseIf (conditional c.1) else .elseBlock (block c.1)
  .mk t.start ((t.part? .initializer).map fun c ↦ stmt c.1) (roleExpr t .condition)
    (((t.part? .consequence).map fun c ↦ block c.1).getD (.mk t.start [])) alternative
termination_by 4 * sizeOf t + 1

def loop (t : Tree) : Stmt :=
  let header := (named t).filter fun c ↦ c.1.role != some .body
  .loop t.start (if header.any fun c ↦ c.1.hasKind .rangeClause then .range else .counted)
    (header.map fun c ↦ expr c.1)
    (((t.part? .body).map fun c ↦ block c.1).getD (.mk t.start []))
termination_by 4 * sizeOf t + 1

def caseClause (t : Tree) : Stmt :=
  let list := match t.kind? with
    | some .expressionCase => ((t.part? .value).map fun c ↦ exprs c.1).getD []
    | some .typeCase => (t.parts.filter fun c ↦ c.1.role == some .type).map fun c ↦ expr c.1
    | _ => []
  .case t.start list (stmts t)
termination_by 4 * sizeOf t + 1

def switch (t : Tree) : Stmt :=
  .switch t.start (if t.hasKind .typeSwitch then .type else .expression)
    ((t.part? .initializer).map fun c ↦ stmt c.1)
    ((t.part? .value).map fun c ↦ expr c.1)
    (.mk (bracePosition t)
      ((ofKinds t [.expressionCase, .typeCase, .defaultCase]).map fun c ↦ caseClause c.1))
termination_by 4 * sizeOf t + 1

def commClause (t : Tree) : Stmt :=
  .comm t.start ((t.part? .communication).map fun c ↦ stmt c.1) (stmts t)
termination_by 4 * sizeOf t + 1

def select (t : Tree) : Stmt :=
  .select t.start (.mk (bracePosition t)
    ((ofKinds t [.communicationCase, .defaultCase]).map fun c ↦ commClause c.1))
termination_by 4 * sizeOf t + 1

def stmt (t : Tree) : Stmt :=
  match t.kind? with
  | some .ifStmt => .cond (conditional t)
  | some .forStmt => loop t
  | some .expressionSwitch => switch t
  | some .typeSwitch => switch t
  | some .selectStmt => select t
  | some .block => .block (block t)
  | some .labeledStmt =>
    .labeled t.start (((t.child? .label).map (Tree.text source)).getD "") (stmts t).head?
  | some .returnStmt => .ret t.start (flatExprs t)
  | some kind => .simple t.start (simpleKind kind) (flatExprs t)
  | none => .simple t.start .expression []
termination_by 4 * sizeOf t + 2

end

end GoComplexity.Source.Lower
