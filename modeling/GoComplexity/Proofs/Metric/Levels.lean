import GoComplexity.Proofs.Metric.Points
import GoComplexity.Proofs.Syntax.PartKinds

/-!
# Levels below a node

The walk for nesting depth treats the parts of a node by their kind. It walks into blocks, clauses and
what stands under a label, it scans operands and the init of a conditional for function literals, and it
skips the rest. So the number of levels that it finds below a node keeps to a bound if and only if each
group of parts does, in the way that its kind asks for.
-/

namespace GoComplexity

open Syntax

/-! ## Levels below a spot -/

namespace Spot

/-- The number of levels that the walk finds below a spot. -/
def height (p : Spot) : ℕ := (p.deepest 0).depth

/-- A bound on the depth is a bound on the level and on each part. -/
theorem depth_deepest_le_iff {level k : ℕ} {p : Spot} :
    (p.deepest level).depth ≤ k ↔
      level ≤ k ∧ ∀ part ∈ p.parts, (part.2.deepest (level + part.1)).depth ≤ k := by
  have hpoints (level : ℕ) (p : Spot) :
      (p.deepest level).depth ≤ k ↔ ∀ q ∈ p.points level, q.depth ≤ k := by
    have hfirst := p.isFirstDeepest_deepest level
    constructor
    · intro h q hq
      exact Nat.le_trans (hfirst.depth_le hq) h
    · intro h
      exact h _ hfirst.mem
  simp only [hpoints]
  rw [points_eq, List.forall_mem_cons, List.forall_mem_flatMap]

/-- A spot finds as many levels below it wherever it lies. -/
theorem depth_deepest (level : ℕ) (p : Spot) : (p.deepest level).depth = level + p.height := by
  induction p using parts_induction generalizing level with
  | step p ih =>
    apply eq_of_forall_ge_iff
    intro k
    have hshift : level + p.height ≤ k ↔ level ≤ k ∧ p.height ≤ k - level := by omega
    rw [hshift, height, depth_deepest_le_iff, depth_deepest_le_iff]
    apply and_congr_right
    intro hlevel
    simp only [Nat.zero_le, true_and]
    apply forall₂_congr
    intro part hpart
    rw [ih part hpart, ih part hpart]
    omega

/-- The height of a spot is bounded exactly if each part, lifted to its level, is. -/
theorem height_le_iff {k : ℕ} {p : Spot} :
    p.height ≤ k ↔ ∀ part ∈ p.parts, part.1 + part.2.height ≤ k := by
  rw [height, depth_deepest_le_iff]
  simp only [depth_deepest, Nat.zero_add, Nat.zero_le, true_and]

/-- Only the parts of a spot decide its height. -/
theorem height_eq_of_parts_eq {p q : Spot} (h : p.parts = q.parts) : p.height = q.height := by
  apply eq_of_forall_ge_iff
  intro k
  rw [height_le_iff, height_le_iff, h]

end Spot

/-! ## Levels below a node -/

namespace Syntax

namespace Node

/-- The number of levels in the function literals at and below a node. -/
def literalLevels (n : Node) : ℕ :=
  (n.outerLiterals.map fun b ↦ 1 + (Spot.block b).height).foldr max 0

/-- The number of levels that the walk finds below a node. -/
def levels : Node → ℕ
  | .cond c => (Spot.elseIf c).height
  | .stmt s => (Spot.stmt s).height
  | .expr e => (expr e).literalLevels

/-- The levels of the function literals in a node are bounded one literal at a time. -/
theorem literalLevels_le_iff_forall {k : ℕ} {n : Node} :
    n.literalLevels ≤ k ↔ ∀ b ∈ n.outerLiterals, 1 + (Spot.block b).height ≤ k := by
  unfold literalLevels
  induction n.outerLiterals with
  | nil => simp
  | cons b rest ih =>
    rw [List.map_cons, List.foldr_cons, Nat.max_le, ih, List.forall_mem_cons]

/-- The levels of a node that stands for a statement are the height of the statement. -/
theorem levels_ofStmt (s : Stmt) : (ofStmt s).levels = (Spot.stmt s).height := by
  cases s with
  | cond c => exact Spot.height_eq_of_parts_eq rfl
  | _ => rfl

end Node

/-- A block is as high as the highest of its statements. -/
theorem height_block_le_iff {k : ℕ} {b : Block} :
    (Spot.block b).height ≤ k ↔ ∀ m ∈ Node.ofBlock b, m.levels ≤ k := by
  rw [Spot.height_le_iff]
  simp [Spot.parts, Spot.ofStmts, Node.ofBlock, Node.levels_ofStmt]

/-- A body one level up, where the bound is strict for the statements. -/
theorem one_add_height_block_le_iff {k : ℕ} {b : Block} :
    1 + (Spot.block b).height ≤ k ↔ 0 < k ∧ ∀ m ∈ Node.ofBlock b, m.levels < k := by
  cases k with
  | zero => simp
  | succ k =>
    rw [Nat.add_comm, Nat.add_le_add_iff_right, height_block_le_iff]
    simp

/-! ## Groups that keep to a bound -/

namespace PartKind

/-- Whether a group of parts keeps to `k` levels below its node when the node is walked. -/
def Walked (k : ℕ) (kind : PartKind) (group : List Node) : Prop :=
  match kind with
  -- A block opens its level even if it is empty, a clause only for its statements.
  | .thenBlock | .elseBlock | .body | .literalBody => 0 < k ∧ ∀ m ∈ group, m.levels < k
  | .clauseBody => ∀ m ∈ group, m.levels < k
  | .elseIf | .bareBlock | .label | .operand => ∀ m ∈ group, m.levels ≤ k
  | .init => ∀ m ∈ group, m.literalLevels ≤ k
  | .test | .header | .switchInit | .tag | .caseList | .operation => True

/-- Whether a group of parts keeps to `k` levels below its node when the node is scanned for function
literals. -/
def Scanned (k : ℕ) (kind : PartKind) (group : List Node) : Prop :=
  match kind with
  | .literalBody => 0 < k ∧ ∀ m ∈ group, m.levels < k
  | _ => ∀ m ∈ group, m.literalLevels ≤ k

theorem scanned_of_ne {k : ℕ} {kind : PartKind} {group : List Node} (h : kind ≠ .literalBody) :
    kind.Scanned k group ↔ ∀ m ∈ group, m.literalLevels ≤ k := by
  cases kind with
  | literalBody => exact absurd rfl h
  | _ => rfl

end PartKind

namespace Node

theorem kind_ne_literalBody {n : Node} (hlit : ∀ body, n ≠ .expr (.funcLit body)) :
    ∀ group ∈ n.groups, group.1 ≠ .literalBody := by
  match n with
  | .cond (.mk _ _ _ _ alternative) => cases alternative <;> simp [groups, groupsOfAlternative]
  | .stmt s => cases s <;> simp [groups]
  | .expr e =>
    cases e with
    | funcLit body => exact absurd rfl (hlit body)
    | _ => simp [groups]

/-- The levels in the function literals of a node, by kinds of parts. -/
theorem literalLevels_le_iff {k : ℕ} {n : Node} :
    n.literalLevels ≤ k ↔ ∀ group ∈ n.groups, group.1.Scanned k group.2 := by
  by_cases hlit : ∃ body, n = .expr (.funcLit body)
  · obtain ⟨body, rfl⟩ := hlit
    rw [literalLevels_le_iff_forall, outerLiterals_funcLit]
    simp [groups, PartKind.Scanned, one_add_height_block_le_iff]
  · have hlit := not_exists.mp hlit
    calc n.literalLevels ≤ k
      _ ↔ ∀ m ∈ n.children, m.literalLevels ≤ k := by
        simp only [literalLevels_le_iff_forall]
        rw [outerLiterals_eq_flatMap hlit, List.forall_mem_flatMap]
      _ ↔ ∀ group ∈ n.groups, ∀ m ∈ group.2, m.literalLevels ≤ k := by
        rw [← flatMap_groups, List.forall_mem_flatMap]
      _ ↔ ∀ group ∈ n.groups, group.1.Scanned k group.2 := by
        apply forall₂_congr
        intro group hgroup
        exact (PartKind.scanned_of_ne (kind_ne_literalBody hlit group hgroup)).symm

/-- A plain statement is as high as the function literals in it. -/
theorem forall_ofLiterals_iff {k : ℕ} {s : Stmt} :
    (∀ part ∈ Spot.ofLiterals s, part.1 + part.2.height ≤ k) ↔ (ofStmt s).literalLevels ≤ k := by
  rw [literalLevels_le_iff_forall, Spot.ofLiterals, List.forall_mem_map]
  rfl

/-- Of the initializer of a conditional the walk sees the function literals only. -/
theorem forall_init_iff {k : ℕ} {init : Option Stmt} :
    (∀ part ∈ init.toList.flatMap Spot.ofLiterals, part.1 + part.2.height ≤ k) ↔
      PartKind.init.Walked k (init.toList.map ofStmt) := by
  rw [List.forall_mem_flatMap, PartKind.Walked, List.forall_mem_map]
  exact forall₂_congr fun s _ ↦ forall_ofLiterals_iff

/-- An `else` block is one level up, and an `else if` on the level of its conditional. -/
theorem forall_ofAlternative_iff {k : ℕ} {alternative : Alternative} :
    (∀ part ∈ Spot.ofAlternative alternative, part.1 + part.2.height ≤ k) ↔
      ∀ group ∈ groupsOfAlternative alternative, group.1.Walked k group.2 := by
  cases alternative with
  | absent => simp [Spot.ofAlternative, groupsOfAlternative]
  | elseIf next => simp [Spot.ofAlternative, groupsOfAlternative, PartKind.Walked, levels]
  | elseBlock b =>
    simp [Spot.ofAlternative, groupsOfAlternative, PartKind.Walked, one_add_height_block_le_iff]

/-- A conditional that is no guard is bounded group by group. -/
theorem levels_cond_le_iff {k : ℕ} {c : Conditional} :
    (cond c).levels ≤ k ↔
      (c.isGuard = true ∨ ∀ group ∈ (cond c).groups, group.1.Walked k group.2) := by
  have hparts : (Spot.elseIf c).parts = Spot.ofConditional c := rfl
  rw [levels, Spot.height_le_iff, hparts, Spot.ofConditional]
  cases hguard : c.isGuard with
  | true => simp
  | false =>
    obtain ⟨pos, init, test, body, alternative⟩ := c
    simp only [Bool.false_eq_true, if_false, false_or, groups, List.forall_mem_append,
      List.forall_mem_cons, Conditional.init, Conditional.body, Conditional.alternative,
      forall_init_iff, forall_ofAlternative_iff, one_add_height_block_le_iff]
    simp [PartKind.Walked]

/-- A statement is bounded group by group, each group as the walk treats its kind. -/
theorem levels_stmt_le_iff {k : ℕ} {s : Stmt} :
    (stmt s).levels ≤ k ↔ ∀ group ∈ (stmt s).groups, group.1.Walked k group.2 := by
  have hsucc (j : ℕ) : 1 + j ≤ k ↔ j < k := by omega
  rw [levels, Spot.height_le_iff]
  cases s with
  | cond c =>
    rw [← Spot.height_le_iff, ← levels_ofStmt]
    simp [ofStmt, groups, PartKind.Walked]
  | loop => simp [Spot.parts, groups, PartKind.Walked, one_add_height_block_le_iff]
  | switch => simp [Spot.parts, groups, PartKind.Walked, one_add_height_block_le_iff]
  | select => simp [Spot.parts, groups, PartKind.Walked, one_add_height_block_le_iff]
  | case => simp [Spot.parts, Spot.ofStmts, groups, PartKind.Walked, levels_ofStmt, hsucc]
  | comm => simp [Spot.parts, Spot.ofStmts, groups, PartKind.Walked, levels_ofStmt, hsucc]
  | block b => simp [Spot.parts, Spot.ofStmts, groups, ofBlock, PartKind.Walked, levels_ofStmt]
  | labeled pos label inner =>
    simp [Spot.parts, Spot.ofStmts, groups, PartKind.Walked, levels_ofStmt]
  | ret =>
    rw [Spot.parts, forall_ofLiterals_iff, literalLevels_le_iff]
    simp [ofStmt, groups, PartKind.Walked, PartKind.Scanned, levels]
  | simple =>
    rw [Spot.parts, forall_ofLiterals_iff, literalLevels_le_iff]
    simp [ofStmt, groups, PartKind.Walked, PartKind.Scanned, levels]

/-- The levels below a node, by kinds of parts. -/
theorem levels_le_iff {k : ℕ} {n : Node} :
    n.levels ≤ k ↔ (n.isGuard = true ∨ ∀ group ∈ n.groups, group.1.Walked k group.2) := by
  cases n with
  | cond c => exact levels_cond_le_iff
  | stmt s =>
    rw [levels_stmt_le_iff]
    simp [isGuard]
  | expr e =>
    rw [levels, literalLevels_le_iff]
    cases e <;> simp [groups, isGuard, PartKind.Walked, PartKind.Scanned, levels]

end Node

end Syntax

end GoComplexity
