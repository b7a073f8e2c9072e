import GoComplexity.Proofs.Metric.Levels

/-!
# Levels around a node

A site is a node of a body with the way down to it: one kind of part for each step. The levels around a
site are the steps that open one. The depth of a body is at least the number of levels around each node
that a traversal outside error guards visits, if the walk for depth sees them all. It does not look for
function literals in tests, loop headers, the inits and tags of switches, the lists of clauses and
communications, so a level opened there may go uncounted.
-/

namespace GoComplexity

open Syntax

namespace Syntax

/-! ## Sites -/

/-- A node and the kinds of parts that lead to it, the outermost one first. -/
structure Site where
  path : List PartKind
  node : Node

namespace Site

/-- The same node, seen from one step further out. -/
def under (kind : PartKind) (site : Site) : Site := ⟨kind :: site.path, site.node⟩

/-- The number of levels that open around the node. -/
def enclosing (site : Site) : ℕ := site.path.countP PartKind.opens

end Site

namespace Node

/-- The sites at and below a node in pre-order, without those inside error guards. -/
def sites (n : Node) : List Site :=
  ⟨[], n⟩ :: if n.isGuard then [] else
    n.members.attach.flatMap fun member ↦ member.1.2.sites.map (Site.under member.1.1)
termination_by n.weight
decreasing_by exact weight_lt_of_mem_children (mem_children_of_mem_members member.2)

/-- The sites below a node are its own and those of its members, one step deeper, if it is no guard. -/
theorem sites_eq (n : Node) :
    n.sites = ⟨[], n⟩ :: if n.isGuard then [] else
      n.members.flatMap fun member ↦ member.2.sites.map (Site.under member.1) := by
  rw [sites, List.flatMap_subtype fun member _ ↦
    (rfl : _ = member.2.sites.map (Site.under member.1)), List.unattach_attach]

theorem self_mem_sites (n : Node) : ⟨[], n⟩ ∈ n.sites := by
  rw [sites_eq]
  exact List.mem_cons_self

theorem cons_mem_sites {n m k : Node} {kind : PartKind} {path : List PartKind}
    (hguard : n.isGuard = false) (hmember : (kind, m) ∈ n.members) (hsite : ⟨path, k⟩ ∈ m.sites) :
    ⟨kind :: path, k⟩ ∈ n.sites := by
  rw [sites_eq, hguard]
  apply List.mem_cons_of_mem
  exact List.mem_flatMap.mpr ⟨_, hmember, List.mem_map_of_mem hsite⟩

/-- Sites are the nodes of the walk that stops at guards, each with the way that leads to it. -/
theorem map_node_sites (n : Node) : n.sites.map Site.node = n.trace fun m ↦ !m.isGuard := by
  induction n using parts_induction with
  | step n ih =>
    rw [sites_eq, trace_eq, List.map_cons]
    congr 1
    cases n.isGuard with
    | true => rfl
    | false =>
      have hunder (kind : PartKind) : Site.node ∘ Site.under kind = Site.node := rfl
      simp only [Bool.false_eq_true, if_false, Bool.not_false, if_true]
      rw [← map_snd_members, List.flatMap_map, List.map_flatMap]
      apply List.flatMap_congr
      intro member hmember
      rw [List.map_map, hunder, ih _ (mem_children_of_mem_members hmember)]

end Node

/-- The sites of a body in pre-order, without those inside error guards. -/
def Block.sites (b : Block) : List Site := (Node.ofBlock b).flatMap Node.sites

theorem Block.map_node_sites (b : Block) :
    b.sites.map Site.node = b.trace fun n ↦ !n.isGuard := by
  rw [sites, List.map_flatMap, Node.ofBlock, List.flatMap_map]
  exact List.flatMap_congr fun s _ ↦ (Node.ofStmt s).map_node_sites

/-! ## Levels that the walk sees -/

namespace PartKind

/-- Whether the walk for depth passes by the parts of the kind. -/
def isSkipped : PartKind → Bool
  | .test | .header | .switchInit | .tag | .caseList | .operation => true
  | _ => false

/-- The steps of a path up to the first function literal. -/
def beforeLiteral (path : List PartKind) : List PartKind := path.takeWhile (· != .literalBody)

/-- Whether a part of the kind hides one of the levels that open on the way further in. The walk looks
for function literals in the init of a conditional, and for nothing else there. -/
def hides (kind : PartKind) (inner : List PartKind) : Bool :=
  if kind.isSkipped then inner.any opens
  else if kind = .init then (beforeLiteral inner).any opens
  else false

/-- Whether no step of a path hides a level that opens further in. -/
def hidesNone : List PartKind → Bool
  | [] => true
  | kind :: inner => !kind.hides inner && hidesNone inner

end PartKind

open PartKind

/-- Whether the walk for depth sees every level around the site. -/
def Site.isSeen (site : Site) : Bool := hidesNone site.path

namespace Node

variable {n m : Node} {kind : PartKind} {inner : List PartKind}

/-- A step into a part that hides nothing further in keeps to the levels that the walk finds. -/
theorem countP_cons_le_levels (hguard : n.isGuard = false) (hmember : (kind, m) ∈ n.members)
    (hhides : kind.hides inner = false) (hwalked : inner.countP opens ≤ m.levels)
    (hscanned : (beforeLiteral inner).any opens = false →
      inner.countP opens ≤ m.literalLevels) :
    (kind :: inner).countP opens ≤ n.levels := by
  obtain ⟨group, hgroup, hm⟩ := mem_members_iff.mp hmember
  have hnot : ¬ n.isGuard = true := by rw [hguard]; exact Bool.false_ne_true
  have hbound : kind.Walked n.levels group :=
    (levels_le_iff.mp (Nat.le_refl n.levels)).resolve_left hnot _ hgroup
  rw [List.countP_cons]
  cases kind with
  | thenBlock | elseBlock | body | literalBody =>
    have hlt : m.levels < n.levels := hbound.2 m hm
    exact Nat.lt_of_le_of_lt hwalked hlt
  | clauseBody =>
    have hlt : m.levels < n.levels := hbound m hm
    exact Nat.lt_of_le_of_lt hwalked hlt
  | elseIf | bareBlock | label | operand =>
    have hle : m.levels ≤ n.levels := hbound m hm
    exact Nat.le_trans hwalked hle
  | init =>
    have hle : m.literalLevels ≤ n.levels := hbound m hm
    exact Nat.le_trans (hscanned hhides) hle
  | test | header | switchInit | tag | caseList | operation =>
    have hzero : inner.countP opens = 0 := List.countP_eq_zero.mpr (List.any_eq_false.mp hhides)
    rw [hzero]
    exact Nat.zero_le _

/-- A step on the way to a function literal keeps to the levels that scanning finds. -/
theorem countP_cons_le_literalLevels (hmember : (kind, m) ∈ n.members)
    (hplain : (beforeLiteral (kind :: inner)).any opens = false)
    (hwalked : inner.countP opens ≤ m.levels)
    (hscanned : (beforeLiteral inner).any opens = false →
      inner.countP opens ≤ m.literalLevels) :
    (kind :: inner).countP opens ≤ n.literalLevels := by
  obtain ⟨group, hgroup, hm⟩ := mem_members_iff.mp hmember
  have hbound : kind.Scanned n.literalLevels group :=
    literalLevels_le_iff.mp (Nat.le_refl n.literalLevels) _ hgroup
  by_cases hkind : kind = .literalBody
  · subst hkind
    have hlt : m.levels < n.literalLevels := hbound.2 m hm
    rw [List.countP_cons]
    exact Nat.lt_of_le_of_lt hwalked hlt
  · rw [beforeLiteral, List.takeWhile_cons_of_pos (by simpa using hkind), List.any_cons,
      Bool.or_eq_false_iff] at hplain
    obtain ⟨hopens, hplain⟩ := hplain
    have hle : m.literalLevels ≤ n.literalLevels := (scanned_of_ne hkind).mp hbound m hm
    rw [List.countP_cons, hopens]
    exact Nat.le_trans (hscanned hplain) hle

/-- Along a path that hides nothing, the walk finds the levels that open. -/
theorem enclosing_le {site : Site} (hsite : site ∈ n.sites) (hseen : site.isSeen = true) :
    site.enclosing ≤ n.levels ∧
      ((beforeLiteral site.path).any opens = false → site.enclosing ≤ n.literalLevels) := by
  -- The second bound carries the first through the init of a conditional, which is only scanned.
  induction n using parts_induction generalizing site with
  | step n ih =>
    rw [sites_eq] at hsite
    rcases List.mem_cons.mp hsite with rfl | hsite
    · exact ⟨Nat.zero_le _, fun _ ↦ Nat.zero_le _⟩
    cases hguard : n.isGuard with
    | true => simp [hguard] at hsite
    | false =>
      rw [hguard, if_neg Bool.false_ne_true] at hsite
      obtain ⟨⟨kind, m⟩, hmember, hsite⟩ := List.mem_flatMap.mp hsite
      obtain ⟨inside, hinside, rfl⟩ := List.mem_map.mp hsite
      obtain ⟨hhides, hinner⟩ := Bool.and_eq_true_iff.mp hseen
      obtain ⟨hwalked, hscanned⟩ := ih m (mem_children_of_mem_members hmember) hinside hinner
      constructor
      · exact countP_cons_le_levels hguard hmember (by simpa using hhides) hwalked hscanned
      · intro hplain
        exact countP_cons_le_literalLevels hmember hplain hwalked hscanned

end Node

end Syntax

/-- A traversal outside error guards visits the sites of a body, and the depth of the body is at least
the number of levels around each site of which the walk sees all. -/
theorem enclosing_le_maxDepth (b : Block) :
    b.sites.map Site.node = b.trace (fun n ↦ !n.isGuard) ∧
      ∀ site ∈ b.sites, site.isSeen = true → site.enclosing ≤ b.maxDepth.depth := by
  refine ⟨b.map_node_sites, ?_⟩
  intro site hsite hseen
  obtain ⟨n, hn, hsite⟩ := List.mem_flatMap.mp hsite
  calc site.enclosing
    _ ≤ n.levels := (Node.enclosing_le hsite hseen).1
    _ ≤ (Spot.block b).height := height_block_le_iff.mp (Nat.le_refl _) n hn
    _ = b.maxDepth.depth := rfl

/-- A loop with one call, the body of a function literal. -/
def loopingLiteral (call : Stmt) : Expr :=
  .funcLit (.mk ⟨3, 14, 45⟩ [.loop ⟨3, 16, 47⟩ .counted [] (.mk ⟨3, 20, 51⟩ [call])])

def stepCall : Stmt := .simple ⟨3, 22, 53⟩ .expression [.call (.ident "step") []]

/-- The looping literal as an argument in a clause. -/
def literalInClause : Block :=
  .mk ⟨1, 10, 9⟩ [.switch ⟨2, 2, 12⟩ .expression none (some (.ident "x")) (.mk ⟨2, 11, 21⟩
    [.case ⟨2, 13, 23⟩ [.lit .int "1"]
      [.simple ⟨3, 3, 34⟩ .expression [.call (.ident "run") [loopingLiteral stepCall]]]])]

/-- A site inside four constructs, the innermost one a function literal in a clause. -/
theorem enclosing_le_maxDepth_literalInClause :
    ∃ site ∈ literalInClause.sites, site.isSeen = true ∧ site.enclosing = 4 ∧
      4 ≤ literalInClause.maxDepth.depth := by
  let site : Site :=
    ⟨[.body, .clauseBody, .operand, .operand, .literalBody, .body], .stmt stepCall⟩
  have hsite : site ∈ literalInClause.sites := by
    refine List.mem_flatMap.mpr ⟨_, .head _, ?_⟩
    refine Node.cons_mem_sites rfl (.tail _ (.head _)) ?_
    refine Node.cons_mem_sites rfl (.tail _ (.head _)) ?_
    refine Node.cons_mem_sites rfl (.head _) ?_
    refine Node.cons_mem_sites rfl (.tail _ (.head _)) ?_
    refine Node.cons_mem_sites rfl (.head _) ?_
    refine Node.cons_mem_sites rfl (.head _) ?_
    exact Node.self_mem_sites _
  exact ⟨site, hsite, rfl, rfl, (enclosing_le_maxDepth literalInClause).2 site hsite rfl⟩

/-- The looping literal, called in the test of a conditional. -/
def literalInTest : Block :=
  .mk ⟨1, 10, 9⟩ [.cond (.mk ⟨2, 2, 12⟩ none (.call (loopingLiteral stepCall) [])
    (.mk ⟨4, 2, 64⟩ []) .absent)]

/-- The walk for depth sees none of the two levels around the call in `literalInTest`. -/
theorem enclosing_exceeds_maxDepth :
    ∃ site ∈ literalInTest.sites, site.enclosing = 2 ∧ literalInTest.maxDepth.depth = 1 := by
  let site : Site := ⟨[.test, .operand, .literalBody, .body], .stmt stepCall⟩
  have hsite : site ∈ literalInTest.sites := by
    refine List.mem_flatMap.mpr ⟨_, .head _, ?_⟩
    refine Node.cons_mem_sites rfl (.head _) ?_
    refine Node.cons_mem_sites rfl (.head _) ?_
    refine Node.cons_mem_sites rfl (.head _) ?_
    refine Node.cons_mem_sites rfl (.head _) ?_
    exact Node.self_mem_sites _
  have hdepth : literalInTest.maxDepth.depth = 1 := by
    simp [literalInTest, Block.maxDepth, NestDepth.ofBlock, NestDepth.ofStmts, NestDepth.ofStmt,
      NestDepth.ofConditional, Conditional.isGuard, Deepest.absorb, Conditional.cond, Expr.notNil?]
  exact ⟨site, hsite, rfl, hdepth⟩

end GoComplexity
