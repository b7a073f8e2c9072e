import GoComplexity.Proofs.Syntax.Nodes

/-!
# Relabeling names and positions

A relabeling puts other names in the place of identifiers and other positions in the place of positions,
at every depth and inside function literals. Selected names, labels, operators and literals stay. The
parts of a relabeled node are those of the node, relabeled.
-/

namespace GoComplexity.Syntax

/-- What is put in the place of each name and of each position. -/
structure Relabeling where
  name : String → String
  place : Position → Position

/-! ## The relabeled body -/

mutual

def Expr.relabel (ρ : Relabeling) : Expr → Expr
  | .ident name => .ident (ρ.name name)
  | .lit kind text => .lit kind text
  | .composite type elements => .composite (relabelExpr? ρ type) (relabelExprs ρ elements)
  | .call callee args => .call (callee.relabel ρ) (relabelExprs ρ args)
  | .selector operand name => .selector (operand.relabel ρ) name
  | .funcLit body => .funcLit (body.relabel ρ)
  | .binary op left right => .binary op (left.relabel ρ) (right.relabel ρ)
  | .other parts => .other (relabelExprs ρ parts)

def relabelExpr? (ρ : Relabeling) : Option Expr → Option Expr
  | none => none
  | some e => some (e.relabel ρ)

def relabelExprs (ρ : Relabeling) : List Expr → List Expr
  | [] => []
  | e :: rest => e.relabel ρ :: relabelExprs ρ rest

def Block.relabel (ρ : Relabeling) : Block → Block
  | .mk lbrace stmts => .mk (ρ.place lbrace) (relabelStmts ρ stmts)

def Conditional.relabel (ρ : Relabeling) : Conditional → Conditional
  | .mk pos init cond body alternative =>
    .mk (ρ.place pos) (relabelStmt? ρ init) (cond.relabel ρ) (body.relabel ρ) (alternative.relabel ρ)

def Alternative.relabel (ρ : Relabeling) : Alternative → Alternative
  | .absent => .absent
  | .elseIf next => .elseIf (next.relabel ρ)
  | .elseBlock body => .elseBlock (body.relabel ρ)

def Stmt.relabel (ρ : Relabeling) : Stmt → Stmt
  | .cond c => .cond (c.relabel ρ)
  | .loop pos kind header body =>
    .loop (ρ.place pos) kind (relabelExprs ρ header) (body.relabel ρ)
  | .switch pos kind init tag body =>
    .switch (ρ.place pos) kind (relabelStmt? ρ init) (relabelExpr? ρ tag) (body.relabel ρ)
  | .select pos body => .select (ρ.place pos) (body.relabel ρ)
  | .case pos list body => .case (ρ.place pos) (relabelExprs ρ list) (relabelStmts ρ body)
  | .comm pos operation body =>
    .comm (ρ.place pos) (relabelStmt? ρ operation) (relabelStmts ρ body)
  | .block b => .block (b.relabel ρ)
  | .labeled pos label inner => .labeled (ρ.place pos) label (relabelStmt? ρ inner)
  | .ret pos results => .ret (ρ.place pos) (relabelExprs ρ results)
  | .simple pos kind exprs => .simple (ρ.place pos) kind (relabelExprs ρ exprs)

def relabelStmt? (ρ : Relabeling) : Option Stmt → Option Stmt
  | none => none
  | some s => some (s.relabel ρ)

def relabelStmts (ρ : Relabeling) : List Stmt → List Stmt
  | [] => []
  | s :: rest => s.relabel ρ :: relabelStmts ρ rest

end

variable (ρ : Relabeling)

@[simp]
theorem relabelExpr?_eq_map (e : Option Expr) : relabelExpr? ρ e = e.map (Expr.relabel ρ) := by
  cases e <;> rfl

@[simp]
theorem relabelExprs_eq_map (es : List Expr) : relabelExprs ρ es = es.map (Expr.relabel ρ) := by
  induction es with
  | nil => rfl
  | cons e rest ih => rw [relabelExprs, ih, List.map_cons]

@[simp]
theorem relabelStmt?_eq_map (s : Option Stmt) : relabelStmt? ρ s = s.map (Stmt.relabel ρ) := by
  cases s <;> rfl

@[simp]
theorem relabelStmts_eq_map (stmts : List Stmt) :
    relabelStmts ρ stmts = stmts.map (Stmt.relabel ρ) := by
  induction stmts with
  | nil => rfl
  | cons s rest ih => rw [relabelStmts, ih, List.map_cons]

@[simp]
theorem Block.lbrace_relabel (b : Block) : (b.relabel ρ).lbrace = ρ.place b.lbrace := by
  cases b
  rfl

@[simp]
theorem Block.stmts_relabel (b : Block) : (b.relabel ρ).stmts = b.stmts.map (Stmt.relabel ρ) := by
  cases b
  exact relabelStmts_eq_map ρ _

@[simp]
theorem Conditional.pos_relabel (c : Conditional) : (c.relabel ρ).pos = ρ.place c.pos := by
  cases c
  rfl

@[simp]
theorem Conditional.init_relabel (c : Conditional) :
    (c.relabel ρ).init = c.init.map (Stmt.relabel ρ) := by
  cases c
  exact relabelStmt?_eq_map ρ _

@[simp]
theorem Conditional.cond_relabel (c : Conditional) : (c.relabel ρ).cond = c.cond.relabel ρ := by
  cases c
  rfl

@[simp]
theorem Conditional.body_relabel (c : Conditional) : (c.relabel ρ).body = c.body.relabel ρ := by
  cases c
  rfl

@[simp]
theorem Conditional.alternative_relabel (c : Conditional) :
    (c.relabel ρ).alternative = c.alternative.relabel ρ := by
  cases c
  rfl

theorem Stmt.pos_relabel (s : Stmt) : (s.relabel ρ).pos = ρ.place s.pos := by
  cases s with
  | cond c => exact c.pos_relabel ρ
  | block b => exact b.lbrace_relabel ρ
  | _ => rfl

/-! ## The nodes of the relabeled body -/

namespace Node

def relabel : Node → Node
  | .cond c => .cond (c.relabel ρ)
  | .stmt s => .stmt (s.relabel ρ)
  | .expr e => .expr (e.relabel ρ)

@[simp]
theorem ofStmt_relabel (s : Stmt) : ofStmt (s.relabel ρ) = (ofStmt s).relabel ρ := by
  cases s <;> rfl

@[simp]
theorem ofBlock_relabel (b : Block) : ofBlock (b.relabel ρ) = (ofBlock b).map (relabel ρ) := by
  simp [ofBlock]

@[simp]
theorem ofAlternative_relabel (a : Alternative) :
    ofAlternative (a.relabel ρ) = (ofAlternative a).map (relabel ρ) := by
  cases a with
  | absent => rfl
  | elseIf next => rfl
  | elseBlock body => exact ofBlock_relabel ρ body

/-- The parts of a relabeled node are its parts, relabeled. -/
theorem children_relabel (n : Node) : (n.relabel ρ).children = n.children.map (relabel ρ) := by
  have hexpr : relabel ρ ∘ expr = expr ∘ Expr.relabel ρ := rfl
  have hstmt : relabel ρ ∘ ofStmt = ofStmt ∘ Stmt.relabel ρ := by
    funext s
    exact (ofStmt_relabel ρ s).symm
  match n with
  | .cond (.mk ..) =>
    simp [relabel, Conditional.relabel, children, Option.toList_map, hstmt]
  | .stmt s =>
    cases s <;> simp [relabel, Stmt.relabel, children, Option.toList_map, hexpr, hstmt]
  | .expr e =>
    cases e <;> simp [relabel, Expr.relabel, children, Option.toList_map, hexpr]

/-- Relabeling goes along with a walk that prunes the same nodes. -/
theorem trace_relabel {keep keep' : Node → Bool} (hkeep : ∀ n : Node, keep (n.relabel ρ) = keep' n)
    (n : Node) : (n.relabel ρ).trace keep = (n.trace keep').map (relabel ρ) := by
  induction n using parts_induction with
  | step n ih =>
    rw [trace_eq, trace_eq keep' n, hkeep, children_relabel, List.map_cons]
    cases keep' n with
    | false => rfl
    | true =>
      simp only [if_true, List.flatMap_map, List.map_flatMap]
      exact congrArg _ (List.flatMap_congr ih)

/-- Relabeling goes into the outer function literals and leaves them where they are. -/
theorem outerLiterals_relabel (n : Node) :
    (n.relabel ρ).outerLiterals = n.outerLiterals.map (Block.relabel ρ) := by
  induction n using parts_induction with
  | step n ih =>
    by_cases hlit : ∃ body, n = .expr (.funcLit body)
    · obtain ⟨body, rfl⟩ := hlit
      rw [outerLiterals_funcLit]
      exact outerLiterals_funcLit (body.relabel ρ)
    · have hlit := not_exists.mp hlit
      have hlit' (body : Block) : n.relabel ρ ≠ .expr (.funcLit body) := by
        match n with
        | .cond _ => simp [relabel]
        | .stmt _ => simp [relabel]
        | .expr e =>
          cases e with
          | funcLit b => exact absurd rfl (hlit b)
          | _ => simp [relabel, Expr.relabel]
      rw [outerLiterals_eq_flatMap hlit, outerLiterals_eq_flatMap hlit', children_relabel,
        List.flatMap_map, List.map_flatMap]
      exact List.flatMap_congr ih

end Node

/-- A walk that asks for nothing but relabeled things visits the relabeled nodes. -/
theorem Block.trace_relabel {keep keep' : Node → Bool}
    (hkeep : ∀ n : Node, keep (n.relabel ρ) = keep' n) (b : Block) :
    (b.relabel ρ).trace keep = (b.trace keep').map (Node.relabel ρ) := by
  simp only [Block.trace, traceList, Block.stmts_relabel, List.flatMap_map, List.map_flatMap,
    Node.ofStmt_relabel, Node.trace_relabel ρ hkeep]

end GoComplexity.Syntax
