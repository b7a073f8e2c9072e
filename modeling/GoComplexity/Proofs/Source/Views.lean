import GoComplexity.Proofs.Syntax.Nodes
import GoComplexity.Source.Statements
import Mathlib.Data.List.Basic

/-!
# Lowering by parts

A view is a tree together with the kind of node it is lowered to. The nodes below a lowered view are
those of its parts, which are views of trees further down. So what a step from a view to its parts keeps
holds of a whole body.
-/

namespace GoComplexity.Source

open Syntax

namespace Tree

/-! ## Children without size bounds -/

/-- The children that stand for a piece of syntax. -/
def named (t : Tree) : List Tree := t.children.filter isNamed

/-- The children that are statements of a list. -/
def statements (t : Tree) : List Tree := t.named.filter fun c ↦ c.role.isNone

/-- The children of one of the given kinds. -/
def ofKinds (t : Tree) (kinds : List Kind) : List Tree := t.children.filter fun c ↦ kinds.any c.hasKind

/-- The children that are parts of a loop header. -/
def header (t : Tree) : List Tree := t.named.filter fun c ↦ c.role != some .body

/-- The parts of a tree are its children, with the proof that they are. -/
theorem map_val_parts (t : Tree) : t.parts.map Subtype.val = t.children := by
  rw [parts, List.map_map]
  exact List.attach_map_subtype_val t.children

theorem map_filter_parts {β : Type} (t : Tree) (p : Tree → Bool) (f : Tree → β) :
    ((t.parts.filter fun c ↦ p c.1).map fun c ↦ f c.1) = (t.children.filter p).map f := by
  rw [← map_val_parts, List.filter_map, List.map_map]
  rfl

theorem map_part? {β : Type} (t : Tree) (r : Role) (f : Tree → β) :
    ((t.part? r).map fun c ↦ f c.1) = (t.child? r).map f := by
  rw [part?, child?, ← map_val_parts, List.find?_map, Option.map_map]
  rfl

theorem child?_eq_map_part? (t : Tree) (r : Role) : t.child? r = (t.part? r).map Subtype.val := by
  simpa using (t.map_part? r id).symm

end Tree

namespace Lower

variable (source : ByteArray) (t : Tree)

theorem map_named {β : Type} (f : Tree → β) : ((named t).map fun c ↦ f c.1) = t.named.map f :=
  t.map_filter_parts Tree.isNamed f

theorem map_unassigned {β : Type} (f : Tree → β) :
    ((unassigned t).map fun c ↦ f c.1) = t.statements.map f := by
  rw [unassigned, named, Tree.statements, Tree.named, List.filter_filter, List.filter_filter]
  exact t.map_filter_parts (fun c ↦ c.role.isNone && c.isNamed) f

theorem map_ofKinds {β : Type} (kinds : List Kind) (f : Tree → β) :
    ((ofKinds t kinds).map fun c ↦ f c.1) = (t.ofKinds kinds).map f :=
  t.map_filter_parts (fun c ↦ kinds.any c.hasKind) f

theorem exprs_eq : exprs source t = t.named.map (expr source) := by
  rw [exprs, map_named]

theorem roleExpr_eq (r : Role) :
    roleExpr source t r = ((t.child? r).map (expr source)).getD (.other []) := by
  rw [roleExpr, Tree.map_part?]

theorem stmts_eq : stmts source t = t.statements.map (stmt source) := by
  rw [stmts, map_unassigned]

/-- A list of expressions among the operands counts as its members. -/
theorem flatExprs_eq : flatExprs source t = t.named.flatMap fun c ↦
    if c.hasKind .expressionList then c.named.map (expr source) else [expr source c] := by
  rw [flatExprs, List.flatMap_def, List.flatMap_def,
    map_named t fun c ↦ if c.hasKind .expressionList then exprs source c else [expr source c]]
  simp only [exprs_eq]

/-- With type arguments the callee is no longer a name or a selector. -/
theorem call_eq : call source t =
    match t.child? .callee, t.child? .arguments with
    | some callee, some arguments =>
      .call (if (t.child? .typeArguments).isSome then .other [expr source callee]
        else expr source callee) (exprs source arguments)
    | _, _ => .other [] := by
  rw [call, t.child?_eq_map_part? .callee, t.child?_eq_map_part? .arguments]
  cases t.part? .callee <;> cases t.part? .arguments <;> rfl

/-- The block of the child with a role. -/
def roleBlock (r : Role) : Block := ((t.child? r).map (block source)).getD (.mk t.start [])

/-- Only function literals become function literals. -/
theorem eq_roleBlock_of_expr_eq {b : Block} (h : expr source t = .funcLit b) :
    b = roleBlock source t .body := by
  rw [expr] at h
  split at h
  · rw [token] at h
    split at h <;> cases h
  · cases h
  · cases h
  · rw [call_eq] at h
    split at h <;> cases h
  · cases h
  · cases h
  · rw [t.map_part? .body (block source)] at h
    exact (Expr.funcLit.inj h).symm
  · cases h
  · cases h

/-- What an `if` does otherwise. -/
def alternativeOf (t : Tree) : Alternative :=
  if t.hasKind .ifStmt then .elseIf (conditional source t) else .elseBlock (block source t)

theorem conditional_eq : conditional source t =
    .mk t.start ((t.child? .initializer).map (stmt source)) (roleExpr source t .condition)
      (roleBlock source t .consequence)
      (((t.child? .alternative).map (alternativeOf source)).getD .absent) := by
  rw [conditional, Tree.map_part?, roleBlock, t.map_part? .consequence (block source),
    t.child?_eq_map_part? .alternative]
  cases t.part? .alternative <;> rfl

theorem map_header {β : Type} (f : Tree → β) :
    (((named t).filter fun c ↦ c.1.role != some .body).map fun c ↦ f c.1) = t.header.map f := by
  rw [named, Tree.header, Tree.named, List.filter_filter, List.filter_filter]
  exact t.map_filter_parts (fun c ↦ c.role != some .body && c.isNamed) f

def loopKind (t : Tree) : LoopKind :=
  if t.header.any fun c ↦ c.hasKind .rangeClause then .range else .counted

theorem loop_eq_header : loop source t =
    .loop t.start (loopKind t) (t.header.map (expr source)) (roleBlock source t .body) := by
  have hany : (((named t).filter fun c ↦ c.1.role != some .body).any fun c ↦ c.1.hasKind .rangeClause) =
      t.header.any fun c ↦ c.hasKind .rangeClause := by
    have hmap := congrArg (List.any · id) (map_header t fun c ↦ c.hasKind .rangeClause)
    simpa only [List.any_map, Function.id_comp] using hmap
  rw [loop, roleBlock, t.map_part? .body (block source), map_header, hany, loopKind]

theorem loop_eq : ∃ kind, loop source t =
    .loop t.start kind (t.header.map (expr source)) (roleBlock source t .body) :=
  ⟨_, loop_eq_header source t⟩

/-- What a clause of a switch lists. -/
def caseList (t : Tree) : List Expr :=
  match t.kind? with
  | some .expressionCase => ((t.child? .value).map (exprs source)).getD []
  | some .typeCase => (t.children.filter fun c ↦ c.role == some .type).map (expr source)
  | _ => []

theorem caseClause_eq :
    caseClause source t = .case t.start (caseList source t) (stmts source t) := by
  rw [caseClause, t.map_part? .value (exprs source),
    t.map_filter_parts fun c ↦ c.role == some .type]
  rfl

def switchKind (t : Tree) : SwitchKind := if t.hasKind .typeSwitch then .type else .expression

theorem switch_eq_clauses : switch source t =
    .switch t.start (switchKind t) ((t.child? .initializer).map (stmt source))
      ((t.child? .value).map (expr source))
      (.mk (bracePosition t)
        ((t.ofKinds [.expressionCase, .typeCase, .defaultCase]).map (caseClause source))) := by
  rw [switch, Tree.map_part?, Tree.map_part?, map_ofKinds, switchKind]

theorem switch_eq : ∃ kind, switch source t =
    .switch t.start kind ((t.child? .initializer).map (stmt source))
      ((t.child? .value).map (expr source))
      (.mk (bracePosition t)
        ((t.ofKinds [.expressionCase, .typeCase, .defaultCase]).map (caseClause source))) :=
  ⟨_, switch_eq_clauses source t⟩

theorem commClause_eq : commClause source t =
    .comm t.start ((t.child? .communication).map (stmt source)) (stmts source t) := by
  rw [commClause, Tree.map_part?]

theorem select_eq : select source t = .select t.start (.mk (bracePosition t)
    ((t.ofKinds [.communicationCase, .defaultCase]).map (commClause source))) := by
  rw [select, map_ofKinds]

end Lower

/-! ## Views -/

/-- A tree and what it is lowered to. -/
inductive View where
  | expr (t : Tree)
  /-- The callee of a call with type arguments. -/
  | applied (t : Tree)
  /-- An expression that is missing. -/
  | hole
  | stmt (t : Tree)
  | cond (t : Tree)
  | case (t : Tree)
  | comm (t : Tree)

namespace View

/-- What a view is lowered to. -/
def node (source : ByteArray) : View → Node
  | .expr t => .expr (Lower.expr source t)
  | .applied t => .expr (.other [Lower.expr source t])
  | .hole => .expr (.other [])
  | .stmt t => Node.ofStmt (Lower.stmt source t)
  | .cond t => .cond (Lower.conditional source t)
  | .case t => .stmt (Lower.caseClause source t)
  | .comm t => .stmt (Lower.commClause source t)

/-- The expression of the child with a role. -/
def ofRole (t : Tree) (r : Role) : View := (t.child? r).elim .hole .expr

/-- The named children as expressions. -/
def operands (t : Tree) : List View := t.named.map .expr

/-- The statements of a list. -/
def body (t : Tree) : List View := t.statements.map .stmt

def exprParts (t : Tree) : List View :=
  match t.kind? with
  | none => []
  | some .composite =>
    (t.child? .type).toList.map .expr ++ (t.child? .body).toList.flatMap operands
  | some .call =>
    match t.child? .callee, t.child? .arguments with
    | some callee, some arguments =>
      (if (t.child? .typeArguments).isSome then .applied callee else .expr callee) ::
        operands arguments
    | _, _ => []
  | some .conversion => ofRole t .type :: (t.child? .operand).toList.map .expr
  | some .selector => [ofRole t .operand]
  | some .funcLiteral => (t.child? .body).toList.flatMap body
  | some .binary => [ofRole t .left, ofRole t .right]
  | some _ => operands t

def alternative (t : Tree) : List View := if t.hasKind .ifStmt then [.cond t] else body t

def condParts (t : Tree) : List View :=
  (t.child? .initializer).toList.map .stmt ++ ofRole t .condition ::
    ((t.child? .consequence).toList.flatMap body ++ (t.child? .alternative).toList.flatMap alternative)

def caseList (t : Tree) : List View :=
  match t.kind? with
  | some .expressionCase => (t.child? .value).toList.flatMap operands
  | some .typeCase => (t.children.filter fun c ↦ c.role == some .type).map .expr
  | _ => []

def items (t : Tree) : List View := if t.hasKind .expressionList then operands t else [.expr t]

def caseKinds : List Kind := [.expressionCase, .typeCase, .defaultCase]

def commKinds : List Kind := [.communicationCase, .defaultCase]

def switchParts (t : Tree) : List View :=
  (t.child? .initializer).toList.map .stmt ++ (t.child? .value).toList.map .expr ++
    (t.ofKinds caseKinds).map .case

def stmtParts (t : Tree) : List View :=
  match t.kind? with
  | none => []
  | some .ifStmt => condParts t
  | some .forStmt => t.header.map .expr ++ (t.child? .body).toList.flatMap body
  | some .expressionSwitch => switchParts t
  | some .typeSwitch => switchParts t
  | some .selectStmt => (t.ofKinds commKinds).map .comm
  | some .block => body t
  | some .labeledStmt => (body t).take 1
  | some _ => t.named.flatMap items

/-- The views whose nodes are the children of a view's node. -/
def parts : View → List View
  | .expr t => exprParts t
  | .applied t => [.expr t]
  | .hole => []
  | .stmt t => stmtParts t
  | .cond t => condParts t
  | .case t => caseList t ++ body t
  | .comm t => (t.child? .communication).toList.map .stmt ++ body t

variable (source : ByteArray)

theorem node_ofRole (t : Tree) (r : Role) :
    (ofRole t r).node source = .expr (Lower.roleExpr source t r) := by
  rw [Lower.roleExpr_eq, ofRole]
  cases t.child? r <;> rfl

theorem map_node_operands (t : Tree) :
    (operands t).map (node source) = (Lower.exprs source t).map .expr := by
  rw [operands, Lower.exprs_eq, List.map_map, List.map_map]
  rfl

theorem map_node_body (t : Tree) :
    (body t).map (node source) = (Lower.stmts source t).map Node.ofStmt := by
  rw [body, Lower.stmts_eq, List.map_map, List.map_map]
  rfl

theorem ofBlock_block (t : Tree) :
    Node.ofBlock (Lower.block source t) = (body t).map (node source) := by
  rw [map_node_body, Lower.block]
  rfl

theorem ofBlock_roleBlock (t : Tree) (r : Role) : Node.ofBlock (Lower.roleBlock source t r) =
    ((t.child? r).toList.flatMap body).map (node source) := by
  rw [Lower.roleBlock]
  cases t.child? r with
  | none => rfl
  | some c => simpa using ofBlock_block source c

/-- The children of the expression made from a tree are made from the parts of the tree. -/
theorem children_expr (t : Tree) :
    (Node.expr (Lower.expr source t)).children = (exprParts t).map (node source) := by
  cases t with
  | leaf role token =>
    rw [Lower.expr, exprParts]
    simp only [Tree.token?, Tree.kind?, Lower.token]
    split <;> rfl
  | node role kind children =>
    generalize ht : Tree.node role kind children = t
    have htoken : t.token? = none := by rw [← ht]; rfl
    have hkind : t.kind? = some kind := by rw [← ht]; rfl
    rw [Lower.expr, exprParts, htoken, hkind]
    cases kind
    case composite =>
      simp only [Node.children, Tree.map_part?, Tree.map_part? t .body (Lower.exprs source)]
      cases t.child? .type <;> cases t.child? .body <;> simp [node, map_node_operands]
    case call =>
      simp only [Lower.call_eq]
      cases t.child? .callee with
      | none => rfl
      | some callee =>
        cases t.child? .arguments with
        | none => rfl
        | some arguments =>
          cases (t.child? .typeArguments).isSome <;>
            exact congrArg _ (map_node_operands source arguments).symm
    case conversion =>
      simp only [Node.children, Tree.map_part?, List.map_cons, node_ofRole]
      cases t.child? .operand <;> rfl
    case selector => simp only [Node.children, List.map_cons, List.map_nil, node_ofRole]
    case funcLiteral =>
      simp only [Node.children, Tree.map_part? t .body (Lower.block source)]
      exact ofBlock_roleBlock source t .body
    case binary => simp only [Node.children, List.map_cons, List.map_nil, node_ofRole]
    -- The other kinds, a literal without type among them, have their named children as parts.
    all_goals exact (map_node_operands source t).symm

/-- The children of the conditional made from a tree are made from its parts. -/
theorem children_cond (t : Tree) :
    (Node.cond (Lower.conditional source t)).children = (condParts t).map (node source) := by
  have halternative : Node.ofAlternative
      (((t.child? .alternative).map (Lower.alternativeOf source)).getD .absent) =
      ((t.child? .alternative).toList.flatMap alternative).map (node source) := by
    cases t.child? .alternative with
    | none => rfl
    | some c =>
      simp only [Option.map_some, Option.getD_some, Option.toList_some, List.flatMap_cons,
        List.flatMap_nil, List.append_nil, Lower.alternativeOf, alternative]
      split
      · rfl
      · exact ofBlock_block source c
  rw [Lower.conditional_eq]
  simp only [Node.children, halternative, ofBlock_roleBlock, condParts, List.map_append,
    List.map_cons, node_ofRole, List.append_assoc, List.cons_append]
  cases t.child? .initializer <;> rfl

theorem children_case (t : Tree) :
    (Node.stmt (Lower.caseClause source t)).children = (caseList t ++ body t).map (node source) := by
  rw [Lower.caseClause_eq, List.map_append, map_node_body]
  simp only [Node.children, Lower.caseList, caseList]
  congr 1
  split
  · cases t.child? .value <;> simp [map_node_operands]
  · rw [List.map_map, List.map_map]
    rfl
  · rfl

theorem children_comm (t : Tree) : (Node.stmt (Lower.commClause source t)).children =
    ((t.child? .communication).toList.map stmt ++ body t).map (node source) := by
  rw [Lower.commClause_eq, List.map_append, map_node_body]
  cases t.child? .communication <;> rfl

theorem ofStmt_caseClause (t : Tree) :
    Node.ofStmt (Lower.caseClause source t) = (case t).node source := by
  rw [node, Lower.caseClause_eq]
  rfl

theorem ofStmt_commClause (t : Tree) :
    Node.ofStmt (Lower.commClause source t) = (comm t).node source := by
  rw [node, Lower.commClause_eq]
  rfl

/-- The children of the switch made from a tree are made from its parts. -/
theorem children_switch (t : Tree) :
    (Node.ofStmt (Lower.switch source t)).children = (switchParts t).map (node source) := by
  obtain ⟨kind, hswitch⟩ := Lower.switch_eq source t
  have hclauses : ((t.ofKinds caseKinds).map (Lower.caseClause source)).map Node.ofStmt =
      ((t.ofKinds caseKinds).map case).map (node source) := by
    simp only [List.map_map, Function.comp_def, ofStmt_caseClause]
  rw [hswitch, switchParts, List.map_append, List.map_append, ← hclauses]
  cases t.child? .initializer <;> cases t.child? .value <;> rfl

theorem children_select (t : Tree) : (Node.ofStmt (Lower.select source t)).children =
    ((t.ofKinds commKinds).map comm).map (node source) := by
  have hclauses : ((t.ofKinds commKinds).map (Lower.commClause source)).map Node.ofStmt =
      ((t.ofKinds commKinds).map comm).map (node source) := by
    simp only [List.map_map, Function.comp_def, ofStmt_commClause]
  rw [Lower.select_eq, ← hclauses]
  rfl

theorem map_node_items (t : Tree) : (items t).map (node source) =
    (if t.hasKind .expressionList then t.named.map (Lower.expr source)
      else [Lower.expr source t]).map .expr := by
  rw [items]
  split
  · rw [map_node_operands, Lower.exprs_eq]
  · rfl

theorem map_flatExprs (t : Tree) :
    (Lower.flatExprs source t).map Node.expr = (t.named.flatMap items).map (node source) := by
  simp only [Lower.flatExprs_eq, List.map_flatMap, map_node_items]

/-- The children of the statement made from a tree are made from its parts, form by form. -/
theorem children_stmt (t : Tree) :
    (Node.ofStmt (Lower.stmt source t)).children = (stmtParts t).map (node source) := by
  cases t with
  | leaf role token =>
    rw [Lower.stmt, stmtParts]
    rfl
  | node role kind children =>
    generalize ht : Tree.node role kind children = t
    have hkind : t.kind? = some kind := by rw [← ht]; rfl
    rw [Lower.stmt, stmtParts, hkind]
    cases kind
    case ifStmt => exact children_cond source t
    case forStmt =>
      obtain ⟨kind, hloop⟩ := Lower.loop_eq source t
      simp only [hloop, Node.ofStmt, Node.children, ofBlock_roleBlock, List.map_append, List.map_map]
      rfl
    case expressionSwitch => exact children_switch source t
    case typeSwitch => exact children_switch source t
    case selectStmt => exact children_select source t
    case block => exact ofBlock_block source t
    case labeledStmt =>
      simp only [Node.ofStmt, Node.children, List.map_take, map_node_body]
      cases Lower.stmts source t <;> rfl
    -- The other statements have the expressions under them as parts.
    all_goals exact map_flatExprs source t

/-- The children of a lowered view are its parts, lowered. -/
theorem children_node (v : View) : (v.node source).children = v.parts.map (node source) := by
  cases v with
  | expr t => exact children_expr source t
  | applied t => rfl
  | hole => rfl
  | stmt t => exact children_stmt source t
  | cond t => exact children_cond source t
  | case t => exact children_case source t
  | comm t => exact children_comm source t

/-- What passes from the parts of every view to the view holds of all views. -/
theorem parts_induction {P : View → Prop} (step : ∀ v, (∀ w ∈ v.parts, P w) → P v) (v : View) :
    P v := by
  -- The nodes get smaller, whatever the source.
  generalize hn : v.node .empty = n
  induction n using Node.parts_induction generalizing v with
  | step n ih =>
    refine step v fun w hw ↦ ih (w.node .empty) ?_ w rfl
    rw [← hn, children_node]
    exact List.mem_map_of_mem hw

/-- The nodes of a view are its own and those of its parts, in pre-order. -/
theorem nodes_eq (v : View) :
    (v.node source).nodes = v.node source :: v.parts.flatMap fun w ↦ (w.node source).nodes := by
  rw [Node.nodes_eq, children_node, List.flatMap_map]

end View

end GoComplexity.Source
