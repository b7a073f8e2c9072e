import GoComplexity.Syntax.Basic

/-!
# Pre-order traversal of a body

A body is a tree of nodes: conditionals, other statements and expressions. `Node.children` lists the
direct parts of a node in source order and `Node.trace` visits a node, then its parts, leaving out
what lies below a node that `keep` rejects. Function literal bodies belong to the tree.
-/

namespace GoComplexity.Syntax

/-- A node of a body. Conditionals appear as `cond` also after `else`, never as `stmt`. -/
inductive Node where
  | cond (c : Conditional)
  | stmt (s : Stmt)
  | expr (e : Expr)

namespace Node

/-- The node of a statement. -/
def ofStmt : Stmt → Node
  | .cond c => .cond c
  | s => .stmt s

def ofBlock (b : Block) : List Node := b.stmts.map ofStmt

def ofAlternative : Alternative → List Node
  | .absent => []
  | .elseIf next => [.cond next]
  | .elseBlock body => ofBlock body

/-- The direct parts of a node, in source order. -/
def children : Node → List Node
  | .cond (.mk _ init test body alternative) =>
    init.toList.map ofStmt ++ .expr test :: ofBlock body ++ ofAlternative alternative
  | .stmt s => match s with
    | .cond c => [.cond c]
    | .loop _ _ header body => header.map expr ++ ofBlock body
    | .switch _ _ init tag body => init.toList.map ofStmt ++ tag.toList.map expr ++ ofBlock body
    | .select _ body => ofBlock body
    | .case _ list body => list.map expr ++ body.map ofStmt
    | .comm _ operation body => operation.toList.map ofStmt ++ body.map ofStmt
    | .block b => ofBlock b
    | .labeled _ _ inner => inner.toList.map ofStmt
    | .ret _ results => results.map expr
    | .simple _ _ exprs => exprs.map expr
  | .expr e => match e with
    | .ident _ => []
    | .lit _ _ => []
    | .composite type elements => type.toList.map expr ++ elements.map expr
    | .call callee args => .expr callee :: args.map expr
    | .selector operand _ => [.expr operand]
    | .funcLit body => ofBlock body
    | .binary _ left right => [.expr left, .expr right]
    | .other parts => parts.map expr

/-- A measure that decreases from a node to its parts. -/
noncomputable def weight : Node → Nat
  | .cond c => sizeOf c
  | .stmt s => sizeOf s
  | .expr e => sizeOf e

theorem weight_ofStmt_le (s : Stmt) : (ofStmt s).weight ≤ sizeOf s := by
  cases s <;> simp [ofStmt, weight]

theorem weight_lt_of_mem_ofStmts {n : Node} {stmts : List Stmt} (h : n ∈ stmts.map ofStmt) :
    n.weight < sizeOf stmts := by
  obtain ⟨s, hs, rfl⟩ := List.mem_map.1 h
  exact Nat.lt_of_le_of_lt (weight_ofStmt_le s) (List.sizeOf_lt_of_mem hs)

theorem weight_lt_of_mem_ofBlock {n : Node} {b : Block} (h : n ∈ ofBlock b) :
    n.weight < sizeOf b := by
  obtain ⟨_, stmts⟩ := b
  have := weight_lt_of_mem_ofStmts h
  simp only [Block.stmts] at this
  simp only [Block.mk.sizeOf_spec]
  omega

theorem weight_lt_of_mem_exprs {n : Node} {es : List Expr} (h : n ∈ es.map expr) :
    n.weight < sizeOf es := by
  obtain ⟨e, he, rfl⟩ := List.mem_map.1 h
  exact List.sizeOf_lt_of_mem he

theorem weight_lt_of_mem_optionStmt {n : Node} {o : Option Stmt} (h : n ∈ o.toList.map ofStmt) :
    n.weight < sizeOf o := by
  cases o with
  | none => simp at h
  | some s =>
    simp only [Option.toList_some, List.map_cons, List.map_nil, List.mem_singleton] at h
    have := weight_ofStmt_le s
    simp only [h, Option.some.sizeOf_spec]
    omega

theorem weight_lt_of_mem_optionExpr {n : Node} {o : Option Expr} (h : n ∈ o.toList.map expr) :
    n.weight < sizeOf o := by
  cases o with
  | none => simp at h
  | some e =>
    simp only [Option.toList_some, List.map_cons, List.map_nil, List.mem_singleton] at h
    simp only [h, weight, Option.some.sizeOf_spec]
    omega

theorem weight_lt_of_mem_ofAlternative {n : Node} {a : Alternative} (h : n ∈ ofAlternative a) :
    n.weight < sizeOf a := by
  cases a with
  | absent => simp [ofAlternative] at h
  | elseIf next =>
    simp only [ofAlternative, List.mem_singleton] at h
    simp only [h, weight, Alternative.elseIf.sizeOf_spec]
    omega
  | elseBlock body =>
    have := weight_lt_of_mem_ofBlock h
    simp only [Alternative.elseBlock.sizeOf_spec]
    omega

theorem weight_lt_of_mem_children_stmt {m : Node} {s : Stmt} (h : m ∈ (stmt s).children) :
    m.weight < sizeOf s := by
  cases s <;> simp only [children, List.mem_append, List.mem_singleton] at h
  case cond => simp only [h, weight, Stmt.cond.sizeOf_spec]; omega
  case loop =>
    rw [Stmt.loop.sizeOf_spec]
    rcases h with h | h
    · have := weight_lt_of_mem_exprs h; omega
    · have := weight_lt_of_mem_ofBlock h; omega
  case switch =>
    rw [Stmt.switch.sizeOf_spec]
    rcases h with (h | h) | h
    · have := weight_lt_of_mem_optionStmt h; omega
    · have := weight_lt_of_mem_optionExpr h; omega
    · have := weight_lt_of_mem_ofBlock h; omega
  case select => rw [Stmt.select.sizeOf_spec]; have := weight_lt_of_mem_ofBlock h; omega
  case case =>
    rw [Stmt.case.sizeOf_spec]
    rcases h with h | h
    · have := weight_lt_of_mem_exprs h; omega
    · have := weight_lt_of_mem_ofStmts h; omega
  case comm =>
    rw [Stmt.comm.sizeOf_spec]
    rcases h with h | h
    · have := weight_lt_of_mem_optionStmt h; omega
    · have := weight_lt_of_mem_ofStmts h; omega
  case block => rw [Stmt.block.sizeOf_spec]; have := weight_lt_of_mem_ofBlock h; omega
  case labeled => rw [Stmt.labeled.sizeOf_spec]; have := weight_lt_of_mem_optionStmt h; omega
  case ret => rw [Stmt.ret.sizeOf_spec]; have := weight_lt_of_mem_exprs h; omega
  case simple => rw [Stmt.simple.sizeOf_spec]; have := weight_lt_of_mem_exprs h; omega

theorem weight_lt_of_mem_children_expr {m : Node} {e : Expr} (h : m ∈ (expr e).children) :
    m.weight < sizeOf e := by
  cases e <;> simp only [children, List.mem_append, List.mem_cons, List.not_mem_nil, or_false] at h
  case composite =>
    rw [Expr.composite.sizeOf_spec]
    rcases h with h | h
    · have := weight_lt_of_mem_optionExpr h; omega
    · have := weight_lt_of_mem_exprs h; omega
  case call =>
    rw [Expr.call.sizeOf_spec]
    rcases h with h | h
    · simp only [h, weight]; omega
    · have := weight_lt_of_mem_exprs h; omega
  case selector => simp only [h, weight, Expr.selector.sizeOf_spec]; omega
  case funcLit => rw [Expr.funcLit.sizeOf_spec]; have := weight_lt_of_mem_ofBlock h; omega
  case binary =>
    rw [Expr.binary.sizeOf_spec]
    rcases h with h | h <;> simp only [h, weight] <;> omega
  case other => rw [Expr.other.sizeOf_spec]; have := weight_lt_of_mem_exprs h; omega

/-- The parts of a node are smaller than the node. -/
theorem weight_lt_of_mem_children {m n : Node} (h : m ∈ n.children) : m.weight < n.weight := by
  match n with
  | .cond (.mk _ init test body alternative) =>
    simp only [children, List.append_assoc, List.cons_append, List.mem_append, List.mem_cons] at h
    change m.weight < sizeOf (Conditional.mk ..)
    rw [Conditional.mk.sizeOf_spec]
    rcases h with h | h | h | h
    · have := weight_lt_of_mem_optionStmt h; omega
    · simp only [h, weight]; omega
    · have := weight_lt_of_mem_ofBlock h; omega
    · have := weight_lt_of_mem_ofAlternative h; omega
  | .stmt _ => exact weight_lt_of_mem_children_stmt h
  | .expr _ => exact weight_lt_of_mem_children_expr h

/-- The nodes visited from `n` in pre-order, without what lies below a node rejected by `keep`. -/
def trace (keep : Node → Bool) (n : Node) : List Node :=
  n :: if keep n then n.children.attach.flatMap fun m ↦ trace keep m.1 else []
termination_by n.weight
decreasing_by exact weight_lt_of_mem_children m.2

theorem trace_eq (keep : Node → Bool) (n : Node) :
    n.trace keep = n :: if keep n then n.children.flatMap (trace keep) else [] := by
  rw [trace, List.flatMap_subtype fun m _ ↦ (rfl : _ = trace keep m), List.unattach_attach]

/-- The bodies of the function literals at or below `n` that lie in no other one, in order. -/
def outerLiterals (n : Node) : List Block :=
  match n with
  | .expr (.funcLit body) => [body]
  | n => n.children.attach.flatMap fun m ↦ outerLiterals m.1
termination_by n.weight
decreasing_by exact weight_lt_of_mem_children m.2

end Node

/-- The nodes of a statement list in pre-order, pruned below nodes that `keep` rejects. -/
def traceList (keep : Node → Bool) (stmts : List Stmt) : List Node :=
  stmts.flatMap fun s ↦ (Node.ofStmt s).trace keep

/-- The nodes of a body in pre-order, pruned below nodes that `keep` rejects. -/
def Block.trace (b : Block) (keep : Node → Bool) : List Node := traceList keep b.stmts

/-- All nodes of a body in pre-order. -/
def Block.nodes (b : Block) : List Node := b.trace fun _ ↦ true

/-- The bodies of the function literals of a statement that lie in no other one. -/
def Stmt.outerLiterals (s : Stmt) : List Block := (Node.ofStmt s).outerLiterals

end GoComplexity.Syntax
