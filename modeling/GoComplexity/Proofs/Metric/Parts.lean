import GoComplexity.Metric.Cyclomatic
import GoComplexity.Metric.NestDepth
import GoComplexity.Proofs.Syntax.Nodes
import Mathlib

/-!
# Complexity and nesting depth by parts

Both structural metrics of a body are put together from those of its parts. The decisions of a node
are its own and those of its parts, unless it is an error guard. The depth of a spot is the first
deepest one among the spot itself and its parts, each so many levels below it as `Spot.parts` says.
-/

namespace GoComplexity

open Syntax

/-! ## Decisions -/

namespace Syntax.Node

/-- The number of decisions at and below a node and outside error guards. -/
def decisions (n : Node) : ℕ := (n.trace fun m ↦ !m.isGuard).countP isDecision

/-- The decisions below a node: its own, and those of its children unless it is a guard. -/
theorem decisions_eq (n : Node) :
    n.decisions = (if n.isDecision then 1 else 0) +
      if n.isGuard then 0 else (n.children.map decisions).sum := by
  unfold decisions
  rw [trace_eq, List.countP_cons, Nat.add_comm]
  congr 1
  cases n.isGuard with
  | true => rfl
  | false => exact List.countP_flatMap

theorem decisions_eq_zero_of_isGuard {n : Node} (h : n.isGuard = true) : n.decisions = 0 := by
  cases n with
  | cond c =>
    have hguard : c.isGuard = true := h
    rw [decisions_eq, if_pos h]
    simp [isDecision, hguard]
  | stmt s => simp [isGuard] at h
  | expr e => simp [isGuard] at h

end Syntax.Node

/-- Complexity is one more than the decisions of the statements together. -/
theorem complexity_eq_decisions (b : Block) :
    b.complexity = 1 + ((Node.ofBlock b).map Node.decisions).sum := by
  unfold Block.complexity Block.trace traceList Node.ofBlock
  rw [List.countP_flatMap, List.map_map]
  rfl

/-! ## Nesting depth -/

namespace Deepest

/-- Of three points the first deepest one is kept, however they are grouped. -/
theorem absorb_assoc (a b c : Deepest) : (a.absorb b).absorb c = a.absorb (b.absorb c) := by
  unfold absorb
  split_ifs <;> first | rfl | omega

theorem absorb_eq_left {a b : Deepest} (h : b.depth ≤ a.depth) : a.absorb b = a :=
  if_neg (Nat.not_lt.mpr h)

/-- What was found before a fold can be compared with its result at the end. -/
theorem foldl_absorb {α : Type} (f : α → Deepest) (l : List α) (a b : Deepest) :
    l.foldl (fun best x ↦ best.absorb (f x)) (a.absorb b) =
      a.absorb (l.foldl (fun best x ↦ best.absorb (f x)) b) := by
  induction l generalizing b with
  | nil => rfl
  | cons x rest ih =>
    rw [List.foldl_cons, List.foldl_cons, absorb_assoc]
    exact ih (b.absorb (f x))

end Deepest

/-- Where nesting depth is taken: a block, a statement or a conditional after `else`. -/
inductive Spot where
  | block (b : Block)
  | stmt (s : Stmt)
  | elseIf (c : Conditional)

namespace Spot

def pos : Spot → Position
  | .block b => b.lbrace
  | .stmt s => s.pos
  | .elseIf c => c.pos

/-- The bodies of the outer function literals of a statement, one level deeper. -/
def ofLiterals (s : Stmt) : List (ℕ × Spot) := s.outerLiterals.map fun b ↦ (1, .block b)

def ofStmts (rise : ℕ) (stmts : List Stmt) : List (ℕ × Spot) := stmts.map fun s ↦ (rise, .stmt s)

def ofAlternative : Alternative → List (ℕ × Spot)
  | .absent => []
  | .elseIf next => [(0, .elseIf next)]
  | .elseBlock body => [(1, .block body)]

/-- The parts of a conditional. An error guard has none. -/
def ofConditional (c : Conditional) : List (ℕ × Spot) :=
  if c.isGuard then []
  else c.init.toList.flatMap ofLiterals ++ (1, .block c.body) :: ofAlternative c.alternative

/-- The parts of a spot in visiting order, each with the number of levels between. -/
def parts : Spot → List (ℕ × Spot)
  | .block b => ofStmts 0 b.stmts
  | .elseIf c => ofConditional c
  | .stmt s => match s with
    | .cond c => ofConditional c
    | .loop _ _ _ body => [(1, .block body)]
    | .switch _ _ _ _ body => [(1, .block body)]
    | .select _ body => [(1, .block body)]
    | .case _ _ body => ofStmts 1 body
    | .comm _ _ body => ofStmts 1 body
    | .block b => ofStmts 0 b.stmts
    | .labeled _ _ inner => ofStmts 0 inner.toList
    | .ret .. => ofLiterals s
    | .simple .. => ofLiterals s

/-- The deepest nesting at and below a spot that lies at the given level. -/
def deepest (depth : ℕ) : Spot → Deepest
  | .block b => NestDepth.ofBlock depth b
  | .stmt s => NestDepth.ofStmt depth s
  | .elseIf c => NestDepth.ofConditional depth c

/-- The deepest of `best` and what lies in the given parts. -/
def foldParts (depth : ℕ) (best : Deepest) (parts : List (ℕ × Spot)) : Deepest :=
  parts.foldl (fun best part ↦ best.absorb (part.2.deepest (depth + part.1))) best

theorem foldParts_absorb (depth : ℕ) (a b : Deepest) (parts : List (ℕ × Spot)) :
    foldParts depth (a.absorb b) parts = a.absorb (foldParts depth b parts) :=
  Deepest.foldl_absorb _ parts a b

theorem foldParts_append (depth : ℕ) (best : Deepest) (parts parts' : List (ℕ × Spot)) :
    foldParts depth best (parts ++ parts') = foldParts depth (foldParts depth best parts) parts' :=
  List.foldl_append

/-- The walk over statements is a fold over them as parts. -/
theorem ofStmts_eq_foldParts (rise depth : ℕ) (best : Deepest) (stmts : List Stmt) :
    NestDepth.ofStmts (depth + rise) best stmts = foldParts depth best (ofStmts rise stmts) := by
  induction stmts generalizing best with
  | nil => rw [NestDepth.ofStmts]; rfl
  | cons s rest ih =>
    rw [NestDepth.ofStmts]
    exact ih _

/-- The walk over function literals is a fold over their bodies as parts. -/
theorem ofLiterals_eq_foldParts (depth : ℕ) (s : Stmt) :
    NestDepth.ofLiterals depth s = foldParts depth ⟨s.pos, depth⟩ (ofLiterals s) := by
  rw [NestDepth.ofLiterals, ofLiterals, foldParts, List.foldl_map,
    List.foldl_subtype fun best b _ ↦ (rfl : _ = best.absorb (NestDepth.ofBlock (depth + 1) b)),
    List.unattach_attach]
  rfl

theorem absorb_ofLiterals_eq_foldParts (depth : ℕ) (pos : Position) (s : Stmt) :
    Deepest.absorb ⟨pos, depth⟩ (NestDepth.ofLiterals depth s) =
      foldParts depth ⟨pos, depth⟩ (ofLiterals s) := by
  rw [ofLiterals_eq_foldParts, ← foldParts_absorb, Deepest.absorb_eq_left (Nat.le_refl depth)]

/-- The walk over a conditional is a fold over its blocks and the literals of its initializer. -/
theorem ofConditional_eq_foldParts (depth : ℕ) (c : Conditional) :
    NestDepth.ofConditional depth c = foldParts depth ⟨c.pos, depth⟩ (ofConditional c) := by
  rw [NestDepth.ofConditional.eq_def, ofConditional]
  by_cases hguard : c.isGuard
  · rw [if_pos hguard, if_pos hguard]
    rfl
  rw [if_neg hguard, if_neg hguard, foldParts_append]
  obtain ⟨pos, init, cond, body, alternative⟩ := c
  cases init with
  | none => cases alternative <;> rfl
  | some s =>
    have hliterals : [s].flatMap ofLiterals = ofLiterals s := List.append_nil _
    dsimp only [Conditional.init, Conditional.pos, Option.toList_some]
    rw [absorb_ofLiterals_eq_foldParts, hliterals]
    cases alternative <;> rfl

/-- The depth of a spot comes from the spot and its parts. -/
theorem deepest_eq (depth : ℕ) (p : Spot) :
    p.deepest depth = foldParts depth ⟨p.pos, depth⟩ p.parts := by
  have hself (c : Conditional) : Deepest.absorb ⟨c.pos, depth⟩ (NestDepth.ofConditional depth c) =
      foldParts depth ⟨c.pos, depth⟩ (ofConditional c) := by
    rw [ofConditional_eq_foldParts, ← foldParts_absorb, Deepest.absorb_eq_left (Nat.le_refl depth)]
  cases p with
  | block b =>
    obtain ⟨lbrace, stmts⟩ := b
    change NestDepth.ofBlock depth _ = _
    rw [NestDepth.ofBlock]
    exact ofStmts_eq_foldParts 0 depth _ stmts
  | elseIf c => exact ofConditional_eq_foldParts depth c
  | stmt s =>
    change NestDepth.ofStmt depth s = _
    cases s with
    | cond c => rw [NestDepth.ofStmt]; exact hself c
    | loop => rw [NestDepth.ofStmt]; rfl
    | switch => rw [NestDepth.ofStmt]; rfl
    | select => rw [NestDepth.ofStmt]; rfl
    | case pos list body => rw [NestDepth.ofStmt]; exact ofStmts_eq_foldParts 1 depth _ body
    | comm pos operation body => rw [NestDepth.ofStmt]; exact ofStmts_eq_foldParts 1 depth _ body
    | block b =>
      obtain ⟨lbrace, stmts⟩ := b
      rw [NestDepth.ofStmt]
      exact ofStmts_eq_foldParts 0 depth _ stmts
    | labeled pos label inner =>
      cases inner with
      | none => rw [NestDepth.ofStmt]; rfl
      | some s => rw [NestDepth.ofStmt]; rfl
    | ret => rw [NestDepth.ofStmt]; exact ofLiterals_eq_foldParts depth _
    | simple => rw [NestDepth.ofStmt]; exact ofLiterals_eq_foldParts depth _

/-! ## Induction over spots -/

/-- A measure that decreases from a spot to its parts. -/
noncomputable def weight : Spot → ℕ
  | .block b => sizeOf b
  | .stmt s => sizeOf s
  | .elseIf c => sizeOf c

theorem weight_lt_of_mem_ofStmts {rise : ℕ} {stmts : List Stmt} {part : ℕ × Spot}
    (h : part ∈ ofStmts rise stmts) : part.2.weight < sizeOf stmts := by
  obtain ⟨s, hs, rfl⟩ := List.mem_map.mp h
  exact List.sizeOf_lt_of_mem hs

theorem weight_lt_of_mem_ofLiterals {s : Stmt} {part : ℕ × Spot} (h : part ∈ ofLiterals s) :
    part.2.weight < sizeOf s := by
  obtain ⟨b, hb, rfl⟩ := List.mem_map.mp h
  exact NestDepth.sizeOf_lt_of_mem_stmt hb

theorem weight_lt_of_mem_ofAlternative {a : Alternative} {part : ℕ × Spot}
    (h : part ∈ ofAlternative a) : part.2.weight < sizeOf a := by
  cases a with
  | absent => simp [ofAlternative] at h
  | elseIf next =>
    rw [List.mem_singleton.mp h, Alternative.elseIf.sizeOf_spec]
    exact Nat.lt_add_of_pos_left Nat.one_pos
  | elseBlock body =>
    rw [List.mem_singleton.mp h, Alternative.elseBlock.sizeOf_spec]
    exact Nat.lt_add_of_pos_left Nat.one_pos

theorem weight_lt_of_mem_ofConditional {c : Conditional} {part : ℕ × Spot}
    (h : part ∈ ofConditional c) : part.2.weight < sizeOf c := by
  obtain ⟨pos, init, cond, body, alternative⟩ := c
  rw [ofConditional] at h
  split_ifs at h
  · simp at h
  rw [Conditional.mk.sizeOf_spec]
  rcases List.mem_append.mp h with h | h
  · cases init with
    | none => simp [Conditional.init] at h
    | some s =>
      have hlt := weight_lt_of_mem_ofLiterals (s := s) (by simpa [Conditional.init] using h)
      rw [Option.some.sizeOf_spec]
      omega
  · rcases List.mem_cons.mp h with rfl | h
    · change sizeOf body < _
      omega
    · have hlt := weight_lt_of_mem_ofAlternative h
      simp only [Conditional.alternative] at hlt
      omega

theorem weight_lt_of_mem_stmt {s : Stmt} {part : ℕ × Spot} (h : part ∈ (stmt s).parts) :
    part.2.weight < sizeOf s := by
  have hbody {body : Block} (h : part ∈ [(1, block body)]) : part.2.weight = sizeOf body := by
    rw [List.mem_singleton.mp h]
    rfl
  cases s with
  | cond c =>
    have := weight_lt_of_mem_ofConditional h
    rw [Stmt.cond.sizeOf_spec]
    omega
  | loop => rw [Stmt.loop.sizeOf_spec, hbody h]; omega
  | switch => rw [Stmt.switch.sizeOf_spec, hbody h]; omega
  | select => rw [Stmt.select.sizeOf_spec, hbody h]; omega
  | case => rw [Stmt.case.sizeOf_spec]; have := weight_lt_of_mem_ofStmts h; omega
  | comm => rw [Stmt.comm.sizeOf_spec]; have := weight_lt_of_mem_ofStmts h; omega
  | block b =>
    obtain ⟨lbrace, stmts⟩ := b
    have : part.2.weight < sizeOf stmts := weight_lt_of_mem_ofStmts h
    rw [Stmt.block.sizeOf_spec, Block.mk.sizeOf_spec]
    omega
  | labeled pos label inner =>
    cases inner with
    | none => simp [parts, ofStmts] at h
    | some s =>
      rw [List.mem_singleton.mp h, Stmt.labeled.sizeOf_spec, Option.some.sizeOf_spec]
      change sizeOf s < _
      omega
  | ret => exact weight_lt_of_mem_ofLiterals h
  | simple => exact weight_lt_of_mem_ofLiterals h

/-- Parts are smaller than the spot they are parts of, which carries inductions over spots. -/
theorem weight_lt_of_mem_parts {p : Spot} {part : ℕ × Spot} (h : part ∈ p.parts) :
    part.2.weight < p.weight := by
  cases p with
  | block b =>
    obtain ⟨lbrace, stmts⟩ := b
    have : part.2.weight < sizeOf stmts := weight_lt_of_mem_ofStmts h
    change _ < sizeOf (Block.mk lbrace stmts)
    rw [Block.mk.sizeOf_spec]
    omega
  | elseIf c => exact weight_lt_of_mem_ofConditional h
  | stmt s => exact weight_lt_of_mem_stmt h

/-- What passes from the parts of every spot to the spot holds of all spots. -/
theorem parts_induction {P : Spot → Prop} (step : ∀ p, (∀ part ∈ p.parts, P part.2) → P p)
    (p : Spot) : P p :=
  step p fun part _ ↦ parts_induction step part.2
termination_by p.weight
decreasing_by exact weight_lt_of_mem_parts ‹_›

/-! ## Spots and nodes -/

/-- The nodes at and below a spot. -/
def nodes : Spot → List Node
  | .block b => b.nodes
  | .stmt s => (Node.ofStmt s).nodes
  | .elseIf c => (Node.cond c).nodes

theorem nodes_subset_of_mem_ofStmts {n : Node} {rise : ℕ} {stmts : List Stmt} {part : ℕ × Spot}
    (h : part ∈ ofStmts rise stmts) (hstmts : stmts.map Node.ofStmt ⊆ n.children) :
    part.2.nodes ⊆ n.nodes := by
  obtain ⟨s, hs, rfl⟩ := List.mem_map.mp h
  exact Node.nodes_subset_of_mem_children (hstmts (List.mem_map_of_mem hs))

/-- The body of a function literal in a statement has no nodes but those of the statement. -/
theorem nodes_subset_of_mem_ofLiterals {s : Stmt} {part : ℕ × Spot} (h : part ∈ ofLiterals s) :
    part.2.nodes ⊆ (Node.ofStmt s).nodes := by
  obtain ⟨b, hb, rfl⟩ := List.mem_map.mp h
  exact Block.nodes_subset_of_mem_outerLiterals hb

theorem nodes_subset_of_body {n : Node} {body : Block} (hbody : Node.ofBlock body ⊆ n.children) :
    (block body).nodes ⊆ n.nodes := by
  change body.nodes ⊆ n.nodes
  rw [Block.nodes_eq]
  exact Node.flatMap_nodes_subset hbody

theorem nodes_subset_of_mem_ofAlternative {c : Conditional} {part : ℕ × Spot}
    (h : part ∈ ofAlternative c.alternative) : part.2.nodes ⊆ (Node.cond c).nodes := by
  have hchildren : Node.ofAlternative c.alternative ⊆ (Node.cond c).children :=
    fun m hm ↦ Node.mem_children_cond.mpr (Or.inr (Or.inr (Or.inr hm)))
  cases halternative : c.alternative with
  | absent => simp [halternative, ofAlternative] at h
  | elseIf next =>
    rw [halternative] at h hchildren
    rw [List.mem_singleton.mp h]
    exact Node.nodes_subset_of_mem_children (hchildren List.mem_cons_self)
  | elseBlock body =>
    rw [halternative] at h hchildren
    rw [List.mem_singleton.mp h]
    exact nodes_subset_of_body hchildren

/-- The parts of a conditional have no nodes but those of the conditional. -/
theorem nodes_subset_of_mem_ofConditional {c : Conditional} {part : ℕ × Spot}
    (h : part ∈ ofConditional c) : part.2.nodes ⊆ (Node.cond c).nodes := by
  rw [ofConditional] at h
  split_ifs at h
  · simp at h
  rcases List.mem_append.mp h with h | h
  · obtain ⟨s, hs, hpart⟩ := List.mem_flatMap.mp h
    have hinit : Node.ofStmt s ∈ (Node.cond c).children :=
      Node.mem_children_cond.mpr (Or.inl (List.mem_map_of_mem hs))
    exact List.Subset.trans (nodes_subset_of_mem_ofLiterals hpart)
      (Node.nodes_subset_of_mem_children hinit)
  rcases List.mem_cons.mp h with rfl | h
  · exact nodes_subset_of_body fun m hm ↦ Node.mem_children_cond.mpr (Or.inr (Or.inr (Or.inl hm)))
  · exact nodes_subset_of_mem_ofAlternative h

/-- The nodes of a part are nodes of the spot. -/
theorem nodes_subset_of_mem_parts {p : Spot} {part : ℕ × Spot} (h : part ∈ p.parts) :
    part.2.nodes ⊆ p.nodes := by
  have hsingle {n : Node} {body : Block} (h : part ∈ [(1, block body)])
      (hbody : Node.ofBlock body ⊆ n.children) : part.2.nodes ⊆ n.nodes := by
    rw [List.mem_singleton.mp h]
    exact nodes_subset_of_body hbody
  cases p with
  | block b =>
    obtain ⟨s, hs, rfl⟩ := List.mem_map.mp h
    change _ ⊆ b.nodes
    rw [Block.nodes_eq]
    intro n hn
    exact List.mem_flatMap.mpr ⟨_, List.mem_map_of_mem hs, hn⟩
  | elseIf c => exact nodes_subset_of_mem_ofConditional h
  | stmt s =>
    cases s with
    | cond c => exact nodes_subset_of_mem_ofConditional h
    | loop => exact hsingle h (List.subset_append_right _ _)
    | switch => exact hsingle h (List.subset_append_right _ _)
    | select => exact hsingle h (List.Subset.refl _)
    | case => exact nodes_subset_of_mem_ofStmts h (List.subset_append_right _ _)
    | comm => exact nodes_subset_of_mem_ofStmts h (List.subset_append_right _ _)
    | block => exact nodes_subset_of_mem_ofStmts h (List.Subset.refl _)
    | labeled => exact nodes_subset_of_mem_ofStmts h (List.Subset.refl _)
    | ret => exact nodes_subset_of_mem_ofLiterals h
    | simple => exact nodes_subset_of_mem_ofLiterals h

end Spot

end GoComplexity
