import GoComplexity.Syntax.Walk
import Mathlib.Data.List.Basic

/-!
# The nodes of a body

Every fact about the tree of nodes is an induction over the parts of a node. The nodes at and below a
node are those of its parts, and an outer function literal lies below the node it is found in.
-/

namespace GoComplexity.Syntax

namespace Node

/-- What passes from the parts of every node to the node holds of all nodes. -/
theorem parts_induction {P : Node → Prop} (step : ∀ n, (∀ m ∈ n.children, P m) → P n) (n : Node) :
    P n :=
  step n fun m _ ↦ parts_induction step m
termination_by n.weight
decreasing_by exact weight_lt_of_mem_children ‹_›

theorem mem_children_cond {m : Node} {c : Conditional} :
    m ∈ (cond c).children ↔ m ∈ c.init.toList.map ofStmt ∨ m = .expr c.cond ∨ m ∈ ofBlock c.body ∨
      m ∈ ofAlternative c.alternative := by
  obtain ⟨pos, init, test, body, alternative⟩ := c
  simp only [children, List.append_assoc, List.cons_append, List.mem_append, List.mem_cons,
    Conditional.init, Conditional.cond, Conditional.body, Conditional.alternative]

def conditional? : Node → Option Conditional
  | .cond c => some c
  | _ => none

/-- The nodes at and below a node, in pre-order. -/
def nodes (n : Node) : List Node := n.trace fun _ ↦ true

/-- Pre-order: a node comes before everything below it. -/
theorem nodes_eq (n : Node) : n.nodes = n :: n.children.flatMap nodes := by
  rw [nodes, trace_eq, if_pos rfl]
  rfl

theorem self_mem_nodes (n : Node) : n ∈ n.nodes := by
  rw [nodes_eq]
  exact List.mem_cons_self

theorem nodes_subset_of_mem_children {m n : Node} (h : m ∈ n.children) : m.nodes ⊆ n.nodes := by
  intro k hk
  rw [nodes_eq n]
  exact List.mem_cons_of_mem n (List.mem_flatMap.mpr ⟨m, h, hk⟩)

theorem flatMap_nodes_subset {n : Node} {parts : List Node} (h : parts ⊆ n.children) :
    parts.flatMap nodes ⊆ n.nodes := by
  intro k hk
  obtain ⟨m, hm, hk⟩ := List.mem_flatMap.mp hk
  exact nodes_subset_of_mem_children (h hm) hk

theorem outerLiterals_funcLit (body : Block) : (expr (.funcLit body)).outerLiterals = [body] := by
  rw [outerLiterals]

/-- Outermost literals of a node that is none are those of its children. -/
theorem outerLiterals_eq_flatMap {n : Node} (h : ∀ body, n ≠ .expr (.funcLit body)) :
    n.outerLiterals = n.children.flatMap outerLiterals := by
  rw [outerLiterals, List.flatMap_subtype fun m _ ↦ (rfl : _ = outerLiterals m),
    List.unattach_attach]
  exact h

end Node

theorem Block.nodes_eq (b : Block) : b.nodes = (Node.ofBlock b).flatMap Node.nodes := by
  unfold Block.nodes Block.trace traceList Node.ofBlock
  rw [List.flatMap_map]
  rfl

theorem Block.nodes_subset_of_mem_outerLiterals {n : Node} {b : Block} (h : b ∈ n.outerLiterals) :
    b.nodes ⊆ n.nodes := by
  induction n using Node.parts_induction with
  | step n ih =>
    by_cases hlit : ∃ body, n = .expr (.funcLit body)
    · obtain ⟨body, rfl⟩ := hlit
      rw [Node.outerLiterals_funcLit, List.mem_singleton] at h
      rw [h, Block.nodes_eq]
      exact Node.flatMap_nodes_subset (List.Subset.refl _)
    · rw [Node.outerLiterals_eq_flatMap (not_exists.mp hlit)] at h
      obtain ⟨m, hm, hb⟩ := List.mem_flatMap.mp h
      exact List.Subset.trans (ih m hm hb) (Node.nodes_subset_of_mem_children hm)

end GoComplexity.Syntax
