import GoComplexity.Proofs.Syntax.Occurrences
import Mathlib.Data.List.Flatten

/-!
# What a traversal visits

A pruned traversal visits the nodes around which nothing is rejected, so rejecting less only adds visits.
Conditionals are visited as such wherever they stand. They are listed here by recursion over the syntax
tree, once for each conditional in it.

The outer function literals of a statement split its literals: every literal is an outer one or lies in
exactly one of them.
-/

namespace GoComplexity.Syntax

open Occurrence
open scoped List

/-! ## Conditionals -/

mutual

/-- The conditionals of an expression, in source order, each one before those inside it. -/
def Expr.ifs : Expr → List Conditional
  | .ident _ | .lit _ _ => []
  | .composite type elements => ifsExpr? type ++ ifsExprs elements
  | .call callee args => callee.ifs ++ ifsExprs args
  | .selector operand _ => operand.ifs
  | .funcLit body => body.ifs
  | .binary _ left right => left.ifs ++ right.ifs
  | .other parts => ifsExprs parts

def ifsExpr? : Option Expr → List Conditional
  | none => []
  | some e => e.ifs

def ifsExprs : List Expr → List Conditional
  | [] => []
  | e :: rest => e.ifs ++ ifsExprs rest

def Block.ifs : Block → List Conditional
  | .mk _ stmts => ifsStmts stmts

def Conditional.ifs : Conditional → List Conditional
  | .mk pos init test body alternative =>
    .mk pos init test body alternative :: (ifsStmt? init ++ test.ifs ++
      body.ifs ++ alternative.ifs)

def Alternative.ifs : Alternative → List Conditional
  | .absent => []
  | .elseIf next => next.ifs
  | .elseBlock body => body.ifs

def Stmt.ifs : Stmt → List Conditional
  | .cond c => c.ifs
  | .loop _ _ header body => ifsExprs header ++ body.ifs
  | .switch _ _ init tag body =>
    ifsStmt? init ++ ifsExpr? tag ++ body.ifs
  | .select _ body => body.ifs
  | .case _ list body => ifsExprs list ++ ifsStmts body
  | .comm _ operation body => ifsStmt? operation ++ ifsStmts body
  | .block b => b.ifs
  | .labeled _ _ inner => ifsStmt? inner
  | .ret _ results => ifsExprs results
  | .simple _ _ exprs => ifsExprs exprs

def ifsStmt? : Option Stmt → List Conditional
  | none => []
  | some s => s.ifs

def ifsStmts : List Stmt → List Conditional
  | [] => []
  | s :: rest => s.ifs ++ ifsStmts rest

end

@[simp]
theorem ifsExpr?_eq (e : Option Expr) :
    ifsExpr? e = ifsExprs e.toList := by
  cases e with
  | none => rfl
  | some e => exact (List.append_nil _).symm

@[simp]
theorem ifsStmt?_eq (s : Option Stmt) :
    ifsStmt? s = ifsStmts s.toList := by
  cases s with
  | none => rfl
  | some s => exact (List.append_nil _).symm

namespace Node

/-- The conditionals at and below a node. -/
def ifs : Node → List Conditional
  | .cond c => c.ifs
  | .stmt s => s.ifs
  | .expr e => e.ifs

theorem ifs_ofStmt (s : Stmt) : (ofStmt s).ifs = s.ifs := by
  cases s with
  | cond c => rw [Stmt.ifs]; rfl
  | _ => rfl

@[simp]
theorem flatMap_ifs_exprs (es : List Expr) :
    (es.map expr).flatMap ifs = ifsExprs es := by
  induction es with
  | nil => rfl
  | cons e rest ih => rw [List.map_cons, List.flatMap_cons, ih, ifsExprs]; rfl

@[simp]
theorem flatMap_ifs_stmts (stmts : List Stmt) :
    (stmts.map ofStmt).flatMap ifs = ifsStmts stmts := by
  induction stmts with
  | nil => rfl
  | cons s rest ih =>
    rw [List.map_cons, List.flatMap_cons, ih, ifs_ofStmt, ifsStmts]

@[simp]
theorem flatMap_ifs_block (b : Block) :
    (ofBlock b).flatMap ifs = b.ifs := by
  obtain ⟨lbrace, stmts⟩ := b
  rw [Block.ifs]
  exact flatMap_ifs_stmts stmts

@[simp]
theorem flatMap_ifs_alternative (a : Alternative) :
    (ofAlternative a).flatMap ifs = a.ifs := by
  cases a with
  | absent => rfl
  | elseIf next =>
    rw [Alternative.ifs]
    exact List.append_nil _
  | elseBlock body =>
    rw [Alternative.ifs]
    exact flatMap_ifs_block body

/-- The conditionals below a node are its own and those of its children. -/
theorem ifs_eq (n : Node) :
    n.ifs = n.conditional?.toList ++ n.children.flatMap ifs := by
  match n with
  | .cond (.mk pos init test body alternative) =>
    simp [ifs, Conditional.ifs, conditional?, children]
  | .stmt s => cases s <;> simp [ifs, Stmt.ifs, conditional?, children]
  | .expr e => cases e <;> simp [ifs, Expr.ifs, conditional?, children]

theorem filterMap_conditional?_eq_ifs (n : Node) : n.nodes.filterMap conditional? = n.ifs := by
  induction n using parts_induction with
  | step n ih =>
    have hparts : (n.children.flatMap nodes).filterMap conditional? = n.children.flatMap ifs := by
      rw [List.filterMap_flatMap]
      exact List.flatMap_congr ih
    rw [nodes_eq, ifs_eq, List.filterMap_cons, hparts]
    cases n.conditional? <;> rfl

/-! ## Visits -/

theorem ofStmt_ne (s : Stmt) (c : Conditional) : ofStmt s ≠ .stmt (.cond c) := by
  cases s <;> simp [ofStmt]

/-- A conditional among statements is a node of its own kind, never a plain statement. -/
theorem stmt_cond_notMem_children (n : Node) (c : Conditional) : .stmt (.cond c) ∉ n.children := by
  match n with
  | .cond (.mk _ _ _ _ alternative) =>
    cases alternative <;> simp [children, ofBlock, ofAlternative, ofStmt_ne]
  | .stmt s => cases s <;> simp [children, ofBlock, ofStmt_ne]
  | .expr e => cases e <;> simp [children, ofBlock, ofStmt_ne]

/-- No walk meets a conditional as a plain statement. -/
theorem stmt_cond_notMem_trace (keep : Node → Bool) {n : Node} {c : Conditional}
    (hn : n ≠ .stmt (.cond c)) : .stmt (.cond c) ∉ n.trace keep := by
  induction n using parts_induction with
  | step n ih =>
    rw [trace_eq, List.mem_cons, not_or]
    refine ⟨hn.symm, ?_⟩
    split
    · rw [List.mem_flatMap]
      rintro ⟨m, hm, hmem⟩
      refine ih m hm ?_ hmem
      rintro rfl
      exact stmt_cond_notMem_children n c hm
    · exact List.not_mem_nil

/-- A traversal that rejects less visits all that one that rejects more does. -/
theorem trace_sublist {keep keep' : Node → Bool} (h : ∀ n, keep n = true → keep' n = true)
    (n : Node) : n.trace keep <+ n.trace keep' := by
  induction n using parts_induction with
  | step n ih =>
    rw [trace_eq, trace_eq]
    apply List.Sublist.cons_cons
    cases hn : keep n with
    | false => exact List.nil_sublist _
    | true =>
      rw [if_pos rfl, if_pos (h n hn)]
      exact List.Sublist.flatMap_right n.children ih

end Node

theorem Block.filterMap_conditional?_eq_ifs (b : Block) :
    b.nodes.filterMap Node.conditional? = b.ifs := by
  rw [Block.nodes_eq, List.filterMap_flatMap, ← Node.flatMap_ifs_block]
  exact List.flatMap_congr fun n _ ↦ n.filterMap_conditional?_eq_ifs

/-- A traversal visits the nodes of the syntax tree around which nothing is rejected, in pre-order and
each occurrence once. It meets every conditional of the tree, and only as a conditional. The less it
rejects, the more it visits. -/
theorem Block.trace_visits_open (b : Block) :
    (∀ keep, b.trace keep = ((b.occurrences []).filter (isOpen keep)).map Occurrence.node) ∧
      b.nodes.filterMap Node.conditional? = b.ifs ∧
      (∀ keep c, .stmt (.cond c) ∉ b.trace keep) ∧
      ∀ keep keep' : Node → Bool, (∀ n, keep n = true → keep' n = true) →
        b.trace keep <+ b.trace keep' := by
  refine ⟨fun keep ↦ b.trace_eq_occurrences keep, b.filterMap_conditional?_eq_ifs, ?_, ?_⟩
  · intro keep c hmem
    obtain ⟨s, -, hmem⟩ := List.mem_flatMap.mp hmem
    exact Node.stmt_cond_notMem_trace keep (Node.ofStmt_ne s c) hmem
  · intro keep keep' h
    exact List.Sublist.flatMap_right b.stmts fun s _ ↦ Node.trace_sublist h (Node.ofStmt s)

/-- A choice with a second test, and a function literal that makes a choice of its own. -/
def nestedChoices : Block :=
  .mk ⟨1, 10, 9⟩
    [.cond (.mk ⟨2, 2, 12⟩ none (.ident "a") (.mk ⟨2, 7, 17⟩ [])
      (.elseIf (.mk ⟨2, 16, 26⟩ none (.call (.ident "b") [.funcLit (.mk ⟨2, 28, 38⟩
        [.cond (.mk ⟨2, 30, 40⟩ none (.ident "c") (.mk ⟨2, 35, 45⟩ []) .absent)])])
        (.mk ⟨2, 42, 52⟩ [.ret ⟨2, 44, 54⟩ []]) .absent)))]

theorem Block.trace_visits_open_nestedChoices :
    (∀ n : Node, (!n.isLiteral) = true → (fun _ ↦ true) n = true) ∧
      nestedChoices.trace (fun n ↦ !n.isLiteral) <+ nestedChoices.nodes ∧
      (nestedChoices.trace fun n ↦ !n.isLiteral).length = 7 ∧ nestedChoices.nodes.length = 9 ∧
      (nestedChoices.nodes.filterMap Node.conditional?).map Conditional.pos =
        [⟨2, 2, 12⟩, ⟨2, 16, 26⟩, ⟨2, 30, 40⟩] := by
  obtain ⟨htrace, hconditionals, -, hmono⟩ := nestedChoices.trace_visits_open
  refine ⟨fun _ _ ↦ rfl, hmono _ _ fun _ _ ↦ rfl, ?_, ?_, ?_⟩
  · rw [htrace]
    rfl
  · rw [Block.nodes, htrace]
    rfl
  · rw [hconditionals]
    rfl

/-! ## Function literals -/

/-- The bodies of the function literals of a body, in pre-order. -/
def Block.literals (b : Block) : List Block := b.nodes.filterMap Node.literal?

namespace Node

/-- The bodies of the function literals at and below a node, in pre-order. -/
def literals (n : Node) : List Block := n.nodes.filterMap literal?

theorem literals_eq (n : Node) :
    n.literals = n.literal?.toList ++ n.children.flatMap literals := by
  rw [literals, nodes_eq, List.filterMap_cons, List.filterMap_flatMap]
  cases n.literal? <;> rfl

theorem flatMap_literals_block (b : Block) : (ofBlock b).flatMap literals = b.literals := by
  rw [Block.literals, Block.nodes_eq, List.filterMap_flatMap]
  rfl

/-- Each outer literal followed by those inside it, one after the other, are all literals. -/
theorem flatMap_outerLiterals (n : Node) :
    (n.outerLiterals.flatMap fun b ↦ b :: b.literals) = n.literals := by
  induction n using parts_induction with
  | step n ih =>
    by_cases hlit : ∃ body, n = .expr (.funcLit body)
    · obtain ⟨body, rfl⟩ := hlit
      rw [outerLiterals_funcLit, List.flatMap_singleton, literals_eq, ← flatMap_literals_block]
      rfl
    · rw [outerLiterals_eq_flatMap (not_exists.mp hlit), List.flatMap_assoc, literals_eq,
        literal?_eq_none (not_exists.mp hlit)]
      exact List.flatMap_congr ih

end Node

namespace Occurrence

/-- The node of an occurrence and the nodes around it. -/
def path (o : Occurrence) : List Node := o.node :: o.around

/-- Whether an occurrence lies inside another one. -/
def IsInside (o p : Occurrence) : Prop := p.path <:+ o.around

/-- Whether an occurrence is a function literal that lies in no other one. -/
structure IsOuterLiteral (o : Occurrence) : Prop where
  isLiteral : o.node.isLiteral = true
  notInside : ∀ n ∈ o.around, n.isLiteral = false

/-- An occurrence is told by the path that leads to it. -/
theorem ext_path {o p : Occurrence} (h : o.path = p.path) : o = p := by
  obtain ⟨node, around⟩ := o
  obtain ⟨node', around'⟩ := p
  obtain ⟨rfl, rfl⟩ := List.cons.inj h
  rfl

/-- No literal lies around an outermost one. -/
theorem IsOuterLiteral.not_isInside {o p : Occurrence} (ho : o.IsOuterLiteral)
    (hp : p.node.isLiteral = true) : ¬ o.IsInside p := by
  intro h
  have hfalse := ho.notInside p.node (h.subset List.mem_cons_self)
  rw [hp] at hfalse
  cases hfalse

end Occurrence

namespace Node

/-- Ancestors are added in front, so those around a node stay at the end. -/
theorem around_suffix_of_mem {around : List Node} {n : Node} {o : Occurrence}
    (h : o ∈ n.occurrences around) : around <:+ o.around := by
  induction n using parts_induction generalizing around with
  | step n ih =>
    rw [occurrences_eq] at h
    rcases List.mem_cons.mp h with rfl | h
    · exact List.suffix_rfl
    · obtain ⟨m, hm, ho⟩ := List.mem_flatMap.mp h
      exact (List.suffix_cons n around).trans (ih m hm ho)

/-- What lies around an occurrence occurs itself. -/
theorem mem_occurrences_of_isInside {around : List Node} {n : Node} {o p : Occurrence}
    (h : o ∈ n.occurrences around) (hinside : o.IsInside p) (haround : around <:+ p.around) :
    p ∈ n.occurrences around := by
  induction n using parts_induction generalizing around with
  | step n ih =>
    rw [occurrences_eq] at h ⊢
    rcases List.mem_cons.mp h with rfl | h
    · have hlt := List.IsSuffix.length_le (hinside.trans haround)
      rw [path, List.length_cons] at hlt
      exact absurd hlt (Nat.not_succ_le_self p.around.length)
    · obtain ⟨m, hm, ho⟩ := List.mem_flatMap.mp h
      have hsuffix := around_suffix_of_mem ho
      by_cases hlength : p.around.length = around.length
      -- `p` is the node itself
      · have heq : p.path = n :: around := by
          refine List.IsSuffix.eq_of_length (List.suffix_of_suffix_length_le hinside hsuffix ?_) ?_
          all_goals simp [path, hlength]
        rw [show p = ⟨n, around⟩ from ext_path heq]
        exact List.mem_cons_self
      · have hle := haround.length_le
        have hwithin : n :: around <:+ p.around := by
          refine List.suffix_of_suffix_length_le hsuffix
            ((List.suffix_cons p.node p.around).trans hinside) ?_
          rw [List.length_cons]
          omega
        exact List.mem_cons_of_mem _ (List.mem_flatMap.mpr ⟨m, hm, ih m hm ho hwithin⟩)

end Node

/-- A list with a member of a kind has a last one. -/
theorem exists_last_of_any {α : Type} {p : α → Bool} {l : List α} (h : l.any p = true) :
    ∃ front a back, l = front ++ a :: back ∧ p a = true ∧ ∀ b ∈ back, p b = false := by
  induction l with
  | nil => cases h
  | cons a l ih =>
    by_cases hl : l.any p = true
    · obtain ⟨front, b, back, rfl, hb, hback⟩ := ih hl
      exact ⟨a :: front, b, back, rfl, hb, hback⟩
    · have ha : p a = true := by simpa [hl] using h
      refine ⟨[], a, l, rfl, ha, ?_⟩
      simpa using hl

/-- A literal is an outer one or lies inside exactly one outer one. -/
theorem Stmt.existsUnique_isOuterLiteral {s : Stmt} {o : Occurrence} (ho : o ∈ s.occurrences [])
    (hlit : o.node.isLiteral = true) :
    ∃! p, p ∈ s.occurrences [] ∧ p.IsOuterLiteral ∧ (o = p ∨ o.IsInside p) := by
  have hpath {p : Occurrence} (h : o = p ∨ o.IsInside p) : p.path <:+ o.path := by
    rcases h with rfl | h
    · exact List.suffix_rfl
    · exact h.trans (List.suffix_cons o.node o.around)
  have hunique {p q : Occurrence} (hp : p.IsOuterLiteral) (hq : q.IsOuterLiteral)
      (h : p.path <:+ q.path) : p = q := by
    rcases List.suffix_cons_iff.mp h with h | h
    · exact Occurrence.ext_path h
    · exact absurd h (hq.not_isInside hp.isLiteral)
  obtain ⟨p, hp, houter, hin⟩ :
      ∃ p, p ∈ s.occurrences [] ∧ p.IsOuterLiteral ∧ (o = p ∨ o.IsInside p) := by
    by_cases hany : o.around.any Node.isLiteral = true
    · obtain ⟨front, n, back, haround, hn, hback⟩ := exists_last_of_any hany
      have hinside : o.IsInside ⟨n, back⟩ := ⟨front, haround.symm⟩
      refine ⟨⟨n, back⟩, ?_, ⟨hn, hback⟩, Or.inr hinside⟩
      rw [← Node.occurrences_ofStmt] at ho ⊢
      exact Node.mem_occurrences_of_isInside ho hinside List.nil_suffix
    · exact ⟨o, ho, ⟨hlit, by simpa using hany⟩, Or.inl rfl⟩
  refine ⟨p, ⟨hp, houter, hin⟩, ?_⟩
  rintro q ⟨-, hq, hqin⟩
  rcases List.suffix_or_suffix_of_suffix (hpath hin) (hpath hqin) with h | h
  · exact (hunique houter hq h).symm
  · exact hunique hq houter h

/-- The outer literals of a statement split its literals: each outer one followed by those inside it, one
after the other, are the literals of the statement in pre-order. So every literal is an outer one or lies
inside exactly one of them, and no outer one lies inside another. -/
theorem Stmt.outerLiterals_split (s : Stmt) :
    (s.outerLiterals.flatMap fun b ↦ b :: b.literals) = (Node.ofStmt s).nodes.filterMap Node.literal? ∧
      s.outerLiterals = s.outermostLiterals ∧
      (∀ o ∈ s.occurrences [], o.node.isLiteral = true →
        ∃! p, p ∈ s.occurrences [] ∧ p.IsOuterLiteral ∧ (o = p ∨ o.IsInside p)) ∧
      ∀ o p : Occurrence, o.IsOuterLiteral → p.IsOuterLiteral → ¬ o.IsInside p :=
  ⟨Node.flatMap_outerLiterals (Node.ofStmt s), s.outerLiterals_eq_outermostLiterals,
    fun _ ho hlit ↦ existsUnique_isOuterLiteral ho hlit,
    fun _ _ ho hp ↦ ho.not_isInside hp.isLiteral⟩

/-- A call with two function literals among its arguments, the first one with a literal inside. -/
def literalArguments : Stmt :=
  .simple ⟨2, 2, 12⟩ .expression [.call (.ident "f")
    [.funcLit (.mk ⟨2, 11, 21⟩ [.ret ⟨2, 13, 23⟩ [.funcLit (.mk ⟨2, 27, 37⟩ [])]]),
      .funcLit (.mk ⟨2, 40, 50⟩ [])]]

/-- Two literals as arguments, the second one with another literal inside. -/
theorem Stmt.outerLiterals_split_literalArguments :
    literalArguments.outerLiterals.map Block.lbrace = [⟨2, 11, 21⟩, ⟨2, 40, 50⟩] ∧
      ((Node.ofStmt literalArguments).nodes.filterMap Node.literal?).map Block.lbrace =
        [⟨2, 11, 21⟩, ⟨2, 27, 37⟩, ⟨2, 40, 50⟩] ∧
      ∀ o ∈ literalArguments.occurrences [], o.node.isLiteral = true →
        ∃ p ∈ literalArguments.occurrences [], p.IsOuterLiteral ∧ (o = p ∨ o.IsInside p) := by
  obtain ⟨hsplit, houter, hunique, -⟩ := literalArguments.outerLiterals_split
  refine ⟨?_, ?_, fun o ho hlit ↦ ?_⟩
  · rw [houter]
    rfl
  · rw [← hsplit, houter]
    simp only [Block.literals, Block.nodes_eq_occurrences]
    rfl
  · obtain ⟨p, ⟨hp, h⟩, -⟩ := hunique o ho hlit
    exact ⟨p, hp, h⟩

end GoComplexity.Syntax
