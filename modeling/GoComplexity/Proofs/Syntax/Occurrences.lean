import GoComplexity.Proofs.Syntax.Nodes

/-!
# Occurrences in the syntax tree of a body

An occurrence is a node together with the nodes around it. The occurrences of a body are listed by
recursion over its statements and expressions, form by form and place by place, apart from any
traversal. A traversal visits exactly those around which no node is rejected, each once and in order,
and the outer function literals of a statement are the literals that occur in no other one.
-/

namespace GoComplexity.Syntax

/-! ## Listing occurrences -/

/-- A node and the nodes around it, the innermost one first. -/
structure Occurrence where
  node : Node
  around : List Node

namespace Occurrence

/-- The occurrence of a node, followed by what occurs inside the node. -/
def enter (n : Node) (around : List Node) (inside : List Node → List Occurrence) :
    List Occurrence :=
  ⟨n, around⟩ :: inside (n :: around)

/-- Whether no node around the occurrence is rejected. -/
def isOpen (keep : Node → Bool) (o : Occurrence) : Bool := o.around.all keep

end Occurrence

open Occurrence

mutual

def Expr.occurrences (around : List Node) : Expr → List Occurrence
  | .ident name => [⟨.expr (.ident name), around⟩]
  | .lit kind text => [⟨.expr (.lit kind text), around⟩]
  | .composite type elements => enter (.expr (.composite type elements)) around fun around ↦
    occurrencesExpr? around type ++ occurrencesExprs around elements
  | .call callee args => enter (.expr (.call callee args)) around fun around ↦
    callee.occurrences around ++ occurrencesExprs around args
  | .selector operand name => enter (.expr (.selector operand name)) around fun around ↦
    operand.occurrences around
  | .funcLit body => enter (.expr (.funcLit body)) around fun around ↦ body.occurrences around
  | .binary op left right => enter (.expr (.binary op left right)) around fun around ↦
    left.occurrences around ++ right.occurrences around
  | .other parts => enter (.expr (.other parts)) around fun around ↦ occurrencesExprs around parts

def occurrencesExpr? (around : List Node) : Option Expr → List Occurrence
  | none => []
  | some e => e.occurrences around

def occurrencesExprs (around : List Node) : List Expr → List Occurrence
  | [] => []
  | e :: rest => e.occurrences around ++ occurrencesExprs around rest

/-- What occurs in a block, which is no node itself. -/
def Block.occurrences (around : List Node) : Block → List Occurrence
  | .mk _ stmts => occurrencesStmts around stmts

def Conditional.occurrences (around : List Node) : Conditional → List Occurrence
  | .mk pos init test body alternative =>
    enter (.cond (.mk pos init test body alternative)) around fun around ↦
      occurrencesStmt? around init ++ test.occurrences around ++ body.occurrences around ++
        alternative.occurrences around

def Alternative.occurrences (around : List Node) : Alternative → List Occurrence
  | .absent => []
  | .elseIf next => next.occurrences around
  | .elseBlock body => body.occurrences around

def Stmt.occurrences (around : List Node) : Stmt → List Occurrence
  | .cond c => c.occurrences around
  | .loop pos kind header body => enter (.stmt (.loop pos kind header body)) around fun around ↦
    occurrencesExprs around header ++ body.occurrences around
  | .switch pos kind init tag body =>
    enter (.stmt (.switch pos kind init tag body)) around fun around ↦
      occurrencesStmt? around init ++ occurrencesExpr? around tag ++ body.occurrences around
  | .select pos body => enter (.stmt (.select pos body)) around fun around ↦
    body.occurrences around
  | .case pos list body => enter (.stmt (.case pos list body)) around fun around ↦
    occurrencesExprs around list ++ occurrencesStmts around body
  | .comm pos operation body => enter (.stmt (.comm pos operation body)) around fun around ↦
    occurrencesStmt? around operation ++ occurrencesStmts around body
  | .block b => enter (.stmt (.block b)) around fun around ↦ b.occurrences around
  | .labeled pos label inner => enter (.stmt (.labeled pos label inner)) around fun around ↦
    occurrencesStmt? around inner
  | .ret pos results => enter (.stmt (.ret pos results)) around fun around ↦
    occurrencesExprs around results
  | .simple pos kind exprs => enter (.stmt (.simple pos kind exprs)) around fun around ↦
    occurrencesExprs around exprs

def occurrencesStmt? (around : List Node) : Option Stmt → List Occurrence
  | none => []
  | some s => s.occurrences around

def occurrencesStmts (around : List Node) : List Stmt → List Occurrence
  | [] => []
  | s :: rest => s.occurrences around ++ occurrencesStmts around rest

end

@[simp]
theorem occurrencesExpr?_eq (around : List Node) (e : Option Expr) :
    occurrencesExpr? around e = occurrencesExprs around e.toList := by
  cases e with
  | none => rfl
  | some e => exact (List.append_nil _).symm

@[simp]
theorem occurrencesStmt?_eq (around : List Node) (s : Option Stmt) :
    occurrencesStmt? around s = occurrencesStmts around s.toList := by
  cases s with
  | none => rfl
  | some s => exact (List.append_nil _).symm

namespace Node

/-- The occurrences at and below a node. -/
def occurrences (around : List Node) : Node → List Occurrence
  | .cond c => c.occurrences around
  -- No body has this node. It is given the parts that `children` gives it.
  | .stmt (.cond c) => enter (.stmt (.cond c)) around fun around ↦ c.occurrences around
  | .stmt s => s.occurrences around
  | .expr e => e.occurrences around

theorem occurrences_ofStmt (around : List Node) (s : Stmt) :
    (ofStmt s).occurrences around = s.occurrences around := by
  cases s with
  | cond c => rw [Stmt.occurrences]; rfl
  | _ => rfl

@[simp]
theorem flatMap_occurrences_exprs (around : List Node) (es : List Expr) :
    (es.map expr).flatMap (occurrences around) = occurrencesExprs around es := by
  induction es with
  | nil => rfl
  | cons e rest ih => rw [List.map_cons, List.flatMap_cons, ih, occurrencesExprs]; rfl

@[simp]
theorem flatMap_occurrences_stmts (around : List Node) (stmts : List Stmt) :
    (stmts.map ofStmt).flatMap (occurrences around) = occurrencesStmts around stmts := by
  induction stmts with
  | nil => rfl
  | cons s rest ih =>
    rw [List.map_cons, List.flatMap_cons, ih, occurrences_ofStmt, occurrencesStmts]

@[simp]
theorem flatMap_occurrences_block (around : List Node) (b : Block) :
    (ofBlock b).flatMap (occurrences around) = b.occurrences around := by
  obtain ⟨lbrace, stmts⟩ := b
  rw [Block.occurrences]
  exact flatMap_occurrences_stmts around stmts

@[simp]
theorem flatMap_occurrences_alternative (around : List Node) (a : Alternative) :
    (ofAlternative a).flatMap (occurrences around) = a.occurrences around := by
  cases a with
  | absent => rfl
  | elseIf next =>
    rw [Alternative.occurrences]
    exact List.append_nil _
  | elseBlock body =>
    rw [Alternative.occurrences]
    exact flatMap_occurrences_block around body

/-- No place of a node is left out by its parts, and none is listed twice. -/
theorem occurrences_eq (around : List Node) (n : Node) :
    n.occurrences around = ⟨n, around⟩ :: n.children.flatMap (occurrences (n :: around)) := by
  match n with
  | .cond (.mk pos init test body alternative) =>
    simp [occurrences, Conditional.occurrences, enter, children]
  | .stmt s => cases s <;> simp [occurrences, Stmt.occurrences, enter, children]
  | .expr e => cases e <;> simp [occurrences, Expr.occurrences, enter, children]

/-! ## What a traversal visits -/

/-- What lies around a node lies around every occurrence below it. -/
theorem around_subset_of_mem {around : List Node} {n : Node} {o : Occurrence}
    (h : o ∈ n.occurrences around) : around ⊆ o.around := by
  induction n using parts_induction generalizing around with
  | step n ih =>
    rw [occurrences_eq] at h
    rcases List.mem_cons.mp h with rfl | h
    · exact List.Subset.refl around
    · obtain ⟨m, hm, ho⟩ := List.mem_flatMap.mp h
      exact List.Subset.trans (List.subset_cons_self n around) (ih m hm ho)

/-- Nothing below a rejected node is open. -/
theorem isOpen_eq_false_of_mem {keep : Node → Bool} {around : List Node} {n m : Node}
    {o : Occurrence} (hn : keep n = false) (ho : o ∈ m.occurrences (n :: around)) :
    o.isOpen keep = false := by
  have hmem : n ∈ o.around := around_subset_of_mem ho List.mem_cons_self
  rw [isOpen, List.all_eq_false]
  exact ⟨n, hmem, by rw [hn]; exact Bool.false_ne_true⟩

/-- A traversal of a node visits the open occurrences at and below it, each once and in order. -/
theorem map_node_filter_isOpen (keep : Node → Bool) (around : List Node)
    (haround : around.all keep = true) (n : Node) :
    ((n.occurrences around).filter (isOpen keep)).map Occurrence.node = n.trace keep := by
  induction n using parts_induction generalizing around with
  | step n ih =>
    have hself : isOpen keep ⟨n, around⟩ = true := haround
    rw [occurrences_eq, trace_eq, List.filter_cons_of_pos hself, List.map_cons]
    congr 1
    cases hn : keep n with
    | false =>
      have hclosed : (n.children.flatMap (occurrences (n :: around))).filter (isOpen keep) = [] := by
        rw [List.filter_eq_nil_iff]
        intro o ho
        obtain ⟨m, -, ho⟩ := List.mem_flatMap.mp ho
        rw [isOpen_eq_false_of_mem hn ho]
        exact Bool.false_ne_true
      rw [hclosed]
      rfl
    | true =>
      have hall : (n :: around).all keep = true := by rw [List.all_cons, hn, haround]; rfl
      rw [if_pos rfl, List.filter_flatMap, List.map_flatMap]
      exact List.flatMap_congr fun m hm ↦ ih m hm _ hall

end Node

/-- A traversal of a body visits its open occurrences. -/
theorem Block.trace_eq_occurrences (keep : Node → Bool) (b : Block) :
    b.trace keep = ((b.occurrences []).filter (isOpen keep)).map Occurrence.node := by
  rw [← Node.flatMap_occurrences_block, List.filter_flatMap, List.map_flatMap, Node.ofBlock,
    List.flatMap_map]
  exact List.flatMap_congr fun s _ ↦ (Node.map_node_filter_isOpen keep [] rfl (Node.ofStmt s)).symm

/-- Occurrences are the nodes of a body, in the same order, with their ancestors. -/
theorem Block.nodes_eq_occurrences (b : Block) :
    b.nodes = (b.occurrences []).map Occurrence.node := by
  have hopen (o : Occurrence) : isOpen (fun _ ↦ true) o = true := List.all_eq_true.mpr fun _ _ ↦ rfl
  rw [Block.nodes, Block.trace_eq_occurrences, List.filter_eq_self.mpr fun o _ ↦ hopen o]

/-! ## Outer function literals -/

namespace Node

/-- The body of a function literal. -/
def literal? : Node → Option Block
  | .expr (.funcLit body) => some body
  | _ => none

def isLiteral (n : Node) : Bool := n.literal?.isSome

theorem literal?_eq_none {n : Node} (h : ∀ body, n ≠ .expr (.funcLit body)) : n.literal? = none := by
  unfold literal?
  split
  · exact absurd rfl (h _)
  · rfl

/-- Outermost literals are those that a walk gets to if it does not enter any. -/
theorem outerLiterals_eq_trace (n : Node) :
    n.outerLiterals = (n.trace fun m ↦ !m.isLiteral).filterMap literal? := by
  induction n using parts_induction with
  | step n ih =>
    rw [trace_eq]
    by_cases hlit : ∃ body, n = .expr (.funcLit body)
    · obtain ⟨body, rfl⟩ := hlit
      rw [outerLiterals_funcLit]
      rfl
    · have hnone := literal?_eq_none (not_exists.mp hlit)
      have hkeep : (!n.isLiteral) = true := by rw [isLiteral, hnone]; rfl
      rw [outerLiterals_eq_flatMap (not_exists.mp hlit), if_pos hkeep,
        List.filterMap_cons_none hnone, List.filterMap_flatMap]
      exact List.flatMap_congr ih

end Node

/-- The bodies of the function literals that occur in a statement and in no other literal of it, in
order. -/
def Stmt.outermostLiterals (s : Stmt) : List Block :=
  ((s.occurrences []).filter fun o ↦ !o.around.any Node.isLiteral).filterMap fun o ↦ o.node.literal?

theorem Stmt.outerLiterals_eq_outermostLiterals (s : Stmt) :
    s.outerLiterals = s.outermostLiterals := by
  have hopen (o : Occurrence) :
      (!o.around.any Node.isLiteral) = isOpen (fun m ↦ !m.isLiteral) o := by
    rw [isOpen, List.not_any_eq_all_not]
  simp only [Stmt.outermostLiterals, hopen]
  rw [Stmt.outerLiterals, Node.outerLiterals_eq_trace, ← Node.map_node_filter_isOpen _ [] rfl,
    Node.occurrences_ofStmt, List.filterMap_map]
  rfl

end GoComplexity.Syntax
