import GoComplexity.Metric.Guard
import GoComplexity.Syntax.Walk

/-!
# Nesting depth

Depth grows by one for the body of each `if`, `else`, `for`, `switch`, `select` and function literal,
and by one more for the statements of a clause. An `else if`, a bare block and a label open no level.
An error guard contributes nothing. The depth of a body comes with the first place that reaches it.
-/

namespace GoComplexity

open Syntax

/-- The greatest depth reached and where it was first reached. -/
structure Deepest where
  pos : Position
  depth : Nat
deriving DecidableEq

namespace Deepest

/-- Takes over only what is strictly deeper. -/
def absorb (best next : Deepest) : Deepest := if best.depth < next.depth then next else best

end Deepest

namespace NestDepth

theorem sizeOf_lt_of_mem_outerLiterals {n : Node} {b : Block} (h : b ∈ n.outerLiterals) :
    sizeOf b < n.weight := by
  fun_induction Node.outerLiterals n with
  | case1 body =>
    simp only [List.mem_singleton] at h
    simp only [h, Node.weight, Expr.funcLit.sizeOf_spec]
    omega
  | case2 n _ ih =>
    obtain ⟨m, _, hb⟩ := List.mem_flatMap.1 h
    exact Nat.lt_trans (ih m hb) (Node.weight_lt_of_mem_children m.2)

theorem sizeOf_lt_of_mem_stmt {s : Stmt} {b : Block} (h : b ∈ s.outerLiterals) :
    sizeOf b < sizeOf s :=
  Nat.lt_of_lt_of_le (sizeOf_lt_of_mem_outerLiterals h) (Node.weight_ofStmt_le s)

mutual

def ofBlock (depth : Nat) (b : Block) : Deepest :=
  match b with
  | .mk lbrace stmts => ofStmts depth ⟨lbrace, depth⟩ stmts
termination_by 2 * sizeOf b

/-- The deepest of `best` and the places in a statement list. -/
def ofStmts (depth : Nat) (best : Deepest) (stmts : List Stmt) : Deepest :=
  match stmts with
  | [] => best
  | s :: rest => ofStmts depth (best.absorb (ofStmt depth s)) rest
termination_by 2 * sizeOf stmts

def ofStmt (depth : Nat) (s : Stmt) : Deepest :=
  match s with
  | .cond c => Deepest.absorb ⟨c.pos, depth⟩ (ofConditional depth c)
  | .loop pos _ _ body => Deepest.absorb ⟨pos, depth⟩ (ofBlock (depth + 1) body)
  | .switch pos _ _ _ body => Deepest.absorb ⟨pos, depth⟩ (ofBlock (depth + 1) body)
  | .select pos body => Deepest.absorb ⟨pos, depth⟩ (ofBlock (depth + 1) body)
  | .case pos _ body => ofStmts (depth + 1) ⟨pos, depth⟩ body
  | .comm pos _ body => ofStmts (depth + 1) ⟨pos, depth⟩ body
  | .block (.mk lbrace stmts) => ofStmts depth ⟨lbrace, depth⟩ stmts
  | .labeled pos _ none => ⟨pos, depth⟩
  | .labeled pos _ (some inner) => Deepest.absorb ⟨pos, depth⟩ (ofStmt depth inner)
  | .ret pos results => ofLiterals depth (.ret pos results)
  | .simple pos kind exprs => ofLiterals depth (.simple pos kind exprs)
termination_by 2 * sizeOf s + 1

def ofConditional (depth : Nat) (c : Conditional) : Deepest :=
  if c.isGuard then ⟨c.pos, depth⟩
  else match c with
    | .mk pos init _ body alternative =>
      let start : Deepest := match init with
        | some s => Deepest.absorb ⟨pos, depth⟩ (ofLiterals depth s)
        | none => ⟨pos, depth⟩
      let inner := start.absorb (ofBlock (depth + 1) body)
      match alternative with
      | .absent => inner
      | .elseIf next => inner.absorb (ofConditional depth next)
      | .elseBlock b => inner.absorb (ofBlock (depth + 1) b)
termination_by 2 * sizeOf c

/-- Each outer function literal of a statement opens a level for its body. -/
def ofLiterals (depth : Nat) (s : Stmt) : Deepest :=
  s.outerLiterals.attach.foldl (fun best b ↦ best.absorb (ofBlock (depth + 1) b.1)) ⟨s.pos, depth⟩
termination_by 2 * sizeOf s
decreasing_by have := sizeOf_lt_of_mem_stmt b.2; omega

end

end NestDepth

/-- The deepest nesting of a body, whose own level is zero. -/
def Syntax.Block.maxDepth (b : Block) : Deepest := NestDepth.ofBlock 0 b

end GoComplexity
