import GoComplexity.Proofs.Metric.Parts
import GoComplexity.Syntax.File

/-!
# Places in bodies and files

The positions in a body are those where its statements and conditionals start and those of the braces of
its blocks. Nesting depth is reported at one of them. A file holds the positions in the bodies of its
functions and those of its imports, functions and bindings.
-/

namespace GoComplexity

namespace Syntax

namespace Node

/-- Where a node starts; expressions keep no position. -/
def pos? : Node → Option Position
  | .cond c => some c.pos
  | .stmt s => some s.pos
  | .expr _ => none

/-- The blocks directly under a node. -/
def blocks : Node → List Block
  | .cond c => c.body :: match c.alternative with
    | .elseBlock b => [b]
    | _ => []
  | .stmt s => match s with
    | .loop _ _ _ body => [body]
    | .switch _ _ _ _ body => [body]
    | .select _ body => [body]
    | .block b => [b]
    | _ => []
  | .expr e => match e with
    | .funcLit body => [body]
    | _ => []

/-- The positions that a node holds by itself. -/
def places (n : Node) : List Position := n.pos?.toList ++ n.blocks.map Block.lbrace

theorem pos?_ofStmt (s : Stmt) : (ofStmt s).pos? = some s.pos := by
  cases s <;> rfl

/-- An outermost literal is the block of some node below. -/
theorem exists_blocks_of_mem_outerLiterals {n : Node} {b : Block} (h : b ∈ n.outerLiterals) :
    ∃ m ∈ n.nodes, b ∈ m.blocks := by
  induction n using parts_induction with
  | step n ih =>
    by_cases hlit : ∃ body, n = .expr (.funcLit body)
    · obtain ⟨body, rfl⟩ := hlit
      rw [outerLiterals_funcLit] at h
      exact ⟨_, self_mem_nodes _, h⟩
    · rw [outerLiterals_eq_flatMap (not_exists.mp hlit)] at h
      obtain ⟨m, hm, hb⟩ := List.mem_flatMap.mp h
      obtain ⟨k, hk, hblock⟩ := ih m hm hb
      exact ⟨k, nodes_subset_of_mem_children hm hk, hblock⟩

end Node

/-- The positions in a body, its own brace first. -/
def Block.places (b : Block) : List Position := b.lbrace :: b.nodes.flatMap Node.places

namespace FunctionDecl

/-- The positions of a declaration and in its body. -/
def places (f : FunctionDecl) : List Position := f.pos :: f.body.toList.flatMap Block.places

/-- Where a declaration starts, where its body does, and where the nodes of the body do in pre-order. -/
def starts (f : FunctionDecl) : List Position :=
  f.pos :: f.body.toList.flatMap fun b ↦ b.lbrace :: b.nodes.filterMap Node.pos?

end FunctionDecl

/-- All positions in a file. -/
def SourceFile.places (file : SourceFile) : List Position :=
  file.imports.map Import.pos ++
    file.functions.flatMap fun f ↦ f.places ++ f.bindings.map Binding.pos

end Syntax

open Syntax

namespace Spot

/-- The positions at and below a spot. -/
def places (p : Spot) : List Position := p.pos :: p.nodes.flatMap Node.places

theorem pos_mem_flatMap_places {n : Node} {nodes : List Node} {pos : Position} (hn : n ∈ nodes)
    (hpos : n.pos? = some pos) : pos ∈ nodes.flatMap Node.places :=
  List.mem_flatMap.mpr ⟨n, hn, List.mem_append_left _ (Option.mem_toList.mpr hpos)⟩

theorem lbrace_mem_flatMap_places {n : Node} {nodes : List Node} {b : Block} (hn : n ∈ nodes)
    (hb : b ∈ n.blocks) : b.lbrace ∈ nodes.flatMap Node.places :=
  List.mem_flatMap.mpr ⟨n, hn, List.mem_append_right _ (List.mem_map_of_mem hb)⟩

theorem exists_blocks_of_mem_ofLiterals {s : Stmt} {b : Block} {rise : ℕ}
    (h : (rise, block b) ∈ ofLiterals s) : ∃ n ∈ (Node.ofStmt s).nodes, b ∈ n.blocks := by
  obtain ⟨b', hb', heq⟩ := List.mem_map.mp h
  cases heq
  exact Node.exists_blocks_of_mem_outerLiterals hb'

/-- The walk enters only blocks of the conditional or of nodes below it. -/
theorem exists_blocks_of_mem_ofConditional {c : Conditional} {b : Block} {rise : ℕ}
    (h : (rise, block b) ∈ ofConditional c) : ∃ n ∈ (Node.cond c).nodes, b ∈ n.blocks := by
  rw [ofConditional] at h
  split_ifs at h
  · simp at h
  rcases List.mem_append.mp h with h | h
  · obtain ⟨s, hs, h⟩ := List.mem_flatMap.mp h
    obtain ⟨n, hn, hb⟩ := exists_blocks_of_mem_ofLiterals h
    have hinit : Node.ofStmt s ∈ (Node.cond c).children :=
      Node.mem_children_cond.mpr (Or.inl (List.mem_map_of_mem hs))
    exact ⟨n, Node.nodes_subset_of_mem_children hinit hn, hb⟩
  rcases List.mem_cons.mp h with heq | h
  · cases heq
    exact ⟨_, Node.self_mem_nodes _, List.mem_cons_self⟩
  · refine ⟨_, Node.self_mem_nodes _, List.mem_cons_of_mem _ ?_⟩
    cases halternative : c.alternative with
    | absent => simp [halternative, ofAlternative] at h
    | elseIf next => simp [halternative, ofAlternative] at h
    | elseBlock body =>
      rw [halternative] at h
      cases List.mem_singleton.mp h
      exact List.mem_cons_self

/-- A block that is part of a spot stands directly under one of its nodes. -/
theorem exists_blocks_of_mem_parts {p : Spot} {b : Block} {rise : ℕ} (h : (rise, block b) ∈ p.parts) :
    ∃ n ∈ p.nodes, b ∈ n.blocks := by
  have hstmts {rise' : ℕ} {stmts : List Stmt} : (rise, block b) ∉ ofStmts rise' stmts := by
    simp [ofStmts]
  have hsingle {n : Node} {body : Block} (h : (rise, block b) ∈ [(1, block body)])
      (hbody : body ∈ n.blocks) : ∃ m ∈ n.nodes, b ∈ m.blocks := by
    cases List.mem_singleton.mp h
    exact ⟨n, Node.self_mem_nodes n, hbody⟩
  cases p with
  | block b' => exact absurd h hstmts
  | elseIf c => exact exists_blocks_of_mem_ofConditional h
  | stmt s =>
    cases s with
    | cond c => exact exists_blocks_of_mem_ofConditional h
    | loop => exact hsingle h List.mem_cons_self
    | switch => exact hsingle h List.mem_cons_self
    | select => exact hsingle h List.mem_cons_self
    | case | comm | block | labeled => exact absurd h hstmts
    | ret | simple => exact exists_blocks_of_mem_ofLiterals h

/-- The positions of a part are positions of the spot. -/
theorem places_subset_of_mem_parts {p : Spot} {part : ℕ × Spot} (h : part ∈ p.parts) :
    part.2.places ⊆ p.places := by
  have hnodes := nodes_subset_of_mem_parts h
  have hpos : part.2.pos ∈ p.nodes.flatMap Node.places := by
    obtain ⟨rise, q⟩ := part
    cases q with
    | block b =>
      obtain ⟨n, hn, hb⟩ := exists_blocks_of_mem_parts h
      exact lbrace_mem_flatMap_places hn hb
    | stmt s => exact pos_mem_flatMap_places (hnodes (Node.self_mem_nodes _)) (Node.pos?_ofStmt s)
    | elseIf c => exact pos_mem_flatMap_places (hnodes (Node.self_mem_nodes _)) rfl
  intro pos hmem
  refine List.mem_cons_of_mem _ ?_
  rcases List.mem_cons.mp hmem with rfl | hmem
  · exact hpos
  · obtain ⟨n, hn, hmem⟩ := List.mem_flatMap.mp hmem
    exact List.mem_flatMap.mpr ⟨n, hnodes hn, hmem⟩

/-- A fold over parts ends at a place where it started or where one of the parts ends. -/
theorem foldParts_pos_mem {depth : ℕ} {best : Deepest} {parts : List (ℕ × Spot)} {ps : List Position}
    (hbest : best.pos ∈ ps) (hparts : ∀ part ∈ parts, (part.2.deepest (depth + part.1)).pos ∈ ps) :
    (foldParts depth best parts).pos ∈ ps := by
  induction parts generalizing best with
  | nil => exact hbest
  | cons part parts ih =>
    have habsorb : (best.absorb (part.2.deepest (depth + part.1))).pos ∈ ps := by
      rw [Deepest.absorb]
      split
      · exact hparts part List.mem_cons_self
      · exact hbest
    exact ih habsorb fun q hq ↦ hparts q (List.mem_cons_of_mem part hq)

/-- The deepest place of a spot is one of its positions. -/
theorem deepest_pos_mem_places (p : Spot) (depth : ℕ) : (p.deepest depth).pos ∈ p.places := by
  induction p using parts_induction generalizing depth with
  | step p ih =>
    rw [deepest_eq]
    exact foldParts_pos_mem List.mem_cons_self fun part hpart ↦
      places_subset_of_mem_parts hpart (ih part hpart _)

end Spot

/-- The deepest point is reported at a place of the body. -/
theorem Syntax.Block.maxDepth_pos_mem_places (b : Block) : b.maxDepth.pos ∈ b.places :=
  Spot.deepest_pos_mem_places (.block b) 0

end GoComplexity
