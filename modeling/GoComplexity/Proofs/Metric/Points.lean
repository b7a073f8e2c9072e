import GoComplexity.Proofs.Metric.Parts
import GoComplexity.Proofs.Syntax.Occurrences

/-!
# The points of a body

A point is a position with the level at which it is reached. A block gives its brace and a statement its
start, each followed by the points of its parts, so many levels deeper as the part says. Every part of a
walk keeps a maximum of its own and gives way to a later one only if that is strictly deeper; put
together, this finds the first of the deepest points.
-/

namespace GoComplexity

open Syntax

/-! ## The first of the deepest -/

/-- Whether `d` is the first of the deepest points: all before it are less deep, and none after it is
deeper. -/
def IsFirstDeepest (points : List Deepest) (d : Deepest) : Prop :=
  ∃ before after, points = before ++ d :: after ∧ (∀ p ∈ before, p.depth < d.depth) ∧
    ∀ p ∈ after, p.depth ≤ d.depth

namespace IsFirstDeepest

variable {points points' : List Deepest} {d d' : Deepest}

theorem singleton (d : Deepest) : IsFirstDeepest [d] d :=
  ⟨[], [], rfl, List.forall_mem_nil _, List.forall_mem_nil _⟩

theorem mem (h : IsFirstDeepest points d) : d ∈ points := by
  obtain ⟨before, after, rfl, -, -⟩ := h
  exact List.mem_append_right before List.mem_cons_self

/-- No point lies deeper than the first deepest one. -/
theorem depth_le (h : IsFirstDeepest points d) {p : Deepest} (hp : p ∈ points) :
    p.depth ≤ d.depth := by
  obtain ⟨before, after, rfl, hbefore, hafter⟩ := h
  rcases List.mem_append.mp hp with hp | hp
  · exact Nat.le_of_lt (hbefore p hp)
  rcases List.mem_cons.mp hp with rfl | hp
  · exact Nat.le_refl p.depth
  · exact hafter p hp

/-- Absorbing keeps the first of the deepest points of two lists in a row. -/
theorem append (h : IsFirstDeepest points d) (h' : IsFirstDeepest points' d') :
    IsFirstDeepest (points ++ points') (d.absorb d') := by
  rw [Deepest.absorb]
  split
  · rename_i hlt
    obtain ⟨before, after, rfl, hbefore, hafter⟩ := h'
    refine ⟨points ++ before, after, (List.append_assoc points before _).symm, ?_, hafter⟩
    intro p hp
    rcases List.mem_append.mp hp with hp | hp
    · exact Nat.lt_of_le_of_lt (h.depth_le hp) hlt
    · exact hbefore p hp
  · rename_i hle
    have hle' {p : Deepest} (hp : p ∈ points') : p.depth ≤ d.depth :=
      Nat.le_trans (h'.depth_le hp) (Nat.le_of_not_lt hle)
    obtain ⟨before, after, rfl, hbefore, hafter⟩ := h
    refine ⟨before, after ++ points', List.append_assoc before _ points', hbefore, ?_⟩
    intro p hp
    rcases List.mem_append.mp hp with hp | hp
    · exact hafter p hp
    · exact hle' hp

end IsFirstDeepest

/-! ## Points -/

namespace Spot

/-- The points of a spot at the given level in visiting order: its own one, then those of its parts. -/
def points (level : ℕ) (p : Spot) : List Deepest :=
  ⟨p.pos, level⟩ :: p.parts.attach.flatMap fun part ↦ part.1.2.points (level + part.1.1)
termination_by p.weight
decreasing_by exact weight_lt_of_mem_parts part.2

/-- The points below a spot are its own and those of its parts, in order. -/
theorem points_eq (level : ℕ) (p : Spot) :
    p.points level =
      ⟨p.pos, level⟩ :: p.parts.flatMap fun part ↦ part.2.points (level + part.1) := by
  rw [points, List.flatMap_subtype fun part _ ↦ (rfl : _ = part.2.points (level + part.1)),
    List.unattach_attach]

/-- A fold over parts keeps the first deepest of all points that it has passed. -/
theorem isFirstDeepest_foldParts {level : ℕ} {parts : List (ℕ × Spot)}
    (hparts : ∀ part ∈ parts,
      IsFirstDeepest (part.2.points (level + part.1)) (part.2.deepest (level + part.1)))
    {points : List Deepest} {best : Deepest} (hbest : IsFirstDeepest points best) :
    IsFirstDeepest (points ++ parts.flatMap fun part ↦ part.2.points (level + part.1))
      (foldParts level best parts) := by
  induction parts generalizing points best with
  | nil =>
    rw [List.flatMap_nil, List.append_nil]
    exact hbest
  | cons part rest ih =>
    obtain ⟨hpart, hrest⟩ := List.forall_mem_cons.mp hparts
    rw [List.flatMap_cons, ← List.append_assoc]
    exact ih hrest (hbest.append hpart)

/-- The walk from a spot returns the first of its deepest points. -/
theorem isFirstDeepest_deepest (level : ℕ) (p : Spot) :
    IsFirstDeepest (p.points level) (p.deepest level) := by
  induction p using parts_induction generalizing level with
  | step p ih =>
    rw [points_eq, deepest_eq]
    exact isFirstDeepest_foldParts (fun part hpart ↦ ih part hpart _) (.singleton ⟨p.pos, level⟩)

end Spot

/-- The depth of a body comes from the first of its deepest points, the body being entered at level zero.
The literals among the parts of a statement are those that occur in it and in no other literal of it. -/
theorem Syntax.Block.maxDepth_isFirstDeepest (b : Block) :
    IsFirstDeepest ((Spot.block b).points 0) b.maxDepth ∧
      ∀ s : Stmt, s.outerLiterals = s.outermostLiterals :=
  ⟨Spot.isFirstDeepest_deepest 0 (.block b), Stmt.outerLiterals_eq_outermostLiterals⟩

end GoComplexity
