import GoComplexity.Proofs.Metric.Points
import GoComplexity.Proofs.Source.Shape

/-!
# Flat bodies

Nesting depth and the traversal outside error guards look at different places of a statement: the walk
for depth passes by conditions, headers, tags and lists. They agree on what is flat all the same. What the
walk passes by belongs to a construct that opens a level of its own or lies in an error guard, which both
leave out. This needs clauses to stand where they belong, as in every body that comes from a source: a
clause opens a level for its statements, but only a switch or select has clauses.
-/

namespace GoComplexity

open Syntax

namespace Syntax

/-! ## Clauses in their places -/

namespace Node

/-- Whether the clauses directly under a node stand in the body of a switch or select of their kind. -/
def clausesInPlace : Node → Bool
  | .stmt (.switch _ _ init _ body) => init.all Stmt.isPlain && body.stmts.all fun s ↦ !s.isComm
  | .stmt (.select _ body) => body.stmts.all fun s ↦ !s.isCase
  | n => n.children.all fun m ↦ !m.isClause

/-- Whether the node is a construct that opens a level, error guards apart. -/
def opensLevel : Node → Bool
  | .cond c => !c.isGuard
  | .stmt (.loop ..) => true
  | .stmt (.switch ..) => true
  | .stmt (.select ..) => true
  | .expr (.funcLit _) => true
  | _ => false

/-- Every decision opens a level or is a clause. -/
theorem isDecision_eq_false {n : Node} (hopens : n.opensLevel = false)
    (hclause : n.isClause = false) : n.isDecision = false := by
  match n with
  | .cond _ => exact hopens
  | .stmt (.loop ..) => cases hopens
  | .stmt (.case ..) | .stmt (.comm ..) => cases hclause
  | .stmt (.cond _) | .stmt (.switch ..) | .stmt (.select ..) | .stmt (.block _)
  | .stmt (.labeled ..) | .stmt (.ret ..) | .stmt (.simple ..) | .expr _ => rfl

/-- What holds no statement list opens no level, function literals apart. -/
theorem opensLevel_of_isFlat {n : Node} (hflat : n.isFlat = true)
    (hlit : ∀ body, n ≠ .expr (.funcLit body)) : n.opensLevel = false := by
  match n with
  | .stmt (.ret ..) | .stmt (.simple ..) => rfl
  | .expr (.funcLit body) => exact absurd rfl (hlit body)
  | .expr (.ident _) | .expr (.lit ..) | .expr (.composite ..) | .expr (.call ..)
  | .expr (.selector ..) | .expr (.binary ..) | .expr (.other _) => rfl

theorem isGuard_of_isFlat {n : Node} (hflat : n.isFlat = true) : n.isGuard = false := by
  cases n with
  | cond c => cases hflat
  | _ => rfl

theorem isClause_ofStmt (s : Stmt) : (ofStmt s).isClause = !s.isPlain := by
  cases s <;> rfl

/-- With the clauses in their places only switches and selects have clauses right below. -/
theorem isClause_of_mem_children {n : Node} (hopens : n.opensLevel = false)
    (hclauses : n.clausesInPlace = true) : ∀ m ∈ n.children, m.isClause = false := by
  unfold clausesInPlace at hclauses
  split at hclauses
  · cases hopens
  · cases hopens
  · simpa using hclauses

end Node

/-- Whether case clauses occur directly in switch bodies only and communication clauses directly in
select bodies only. -/
def Block.ClausesInPlace (b : Block) : Prop :=
  (∀ s ∈ b.stmts, s.isPlain = true) ∧ ∀ n ∈ b.nodes, n.clausesInPlace = true

instance (b : Block) : Decidable b.ClausesInPlace :=
  inferInstanceAs (Decidable
    ((∀ s ∈ b.stmts, s.isPlain = true) ∧ ∀ n ∈ b.nodes, n.clausesInPlace = true))

/-- A property of all nodes of a body holds of the nodes of each statement. -/
theorem Block.ClausesInPlace.of_mem {b : Block} (h : b.ClausesInPlace) {s : Stmt} (hs : s ∈ b.stmts) :
    ∀ n ∈ (Node.ofStmt s).nodes, n.clausesInPlace = true := by
  intro n hn
  apply h.2
  rw [Block.nodes_eq]
  exact List.mem_flatMap.mpr ⟨_, List.mem_map_of_mem hs, hn⟩

theorem Stmt.isPlain_of_isSimple {s : Stmt} (h : s.isSimple = true) : s.isPlain = true := by
  cases s with
  | simple => rfl
  | _ => cases h

namespace Node

theorem all_isClause_exprs (es : List Expr) : ((es.map expr).all fun m ↦ !m.isClause) = true := by
  simp [isClause]

theorem all_isClause_stmts {stmts : List Stmt} (h : ∀ s ∈ stmts, s.isPlain = true) :
    ((stmts.map ofStmt).all fun m ↦ !m.isClause) = true := by
  simpa [isClause_ofStmt] using h

theorem all_isClause_init {init : Option Stmt} (h : ∀ s ∈ init, s.isSimple = true) :
    ((init.toList.map ofStmt).all fun m ↦ !m.isClause) = true :=
  all_isClause_stmts fun s hs ↦ Stmt.isPlain_of_isSimple (h s (Option.mem_toList.mp hs))

variable {isDefault : Position → Prop}

theorem clausesInPlace_cond {c : Conditional} (h : (cond c).WellShaped isDefault) :
    (cond c).clausesInPlace = true := by
  obtain ⟨pos, init, test, body, alternative⟩ := c
  obtain ⟨hinit, hbody, helse⟩ := h
  have hfirst : ((init.toList.map ofStmt).all fun m ↦ !m.isClause) = true := all_isClause_init hinit
  have hblock : ((ofBlock body).all fun m ↦ !m.isClause) = true := all_isClause_stmts hbody
  have halternative : ((ofAlternative alternative).all fun m ↦ !m.isClause) = true := by
    cases alternative with
    | absent | elseIf => rfl
    | elseBlock b => exact all_isClause_stmts (helse b rfl)
  rw [clausesInPlace, children, List.all_append, List.all_append, List.all_cons, hfirst, hblock,
    halternative]
  · rfl
  all_goals simp

theorem clausesInPlace_stmt {s : Stmt} (h : (stmt s).WellShaped isDefault) :
    (stmt s).clausesInPlace = true := by
  cases s with
  | cond => cases h
  | loop _ _ header body =>
    have hblock : ((ofBlock body).all fun m ↦ !m.isClause) = true := all_isClause_stmts h
    simp only [clausesInPlace, children, List.all_append, all_isClause_exprs, hblock, Bool.and_self]
  | switch _ _ init _ body =>
    obtain ⟨hinit, hbody⟩ := h
    rw [clausesInPlace, Bool.and_eq_true, List.all_eq_true, Option.all_eq_true]
    constructor
    · intro s hs
      exact Stmt.isPlain_of_isSimple (hinit s hs)
    · intro s hs
      cases s with
      | case => rfl
      | _ => cases hbody _ hs
  | select _ body =>
    rw [clausesInPlace, List.all_eq_true]
    intro s hs
    cases s with
    | comm => rfl
    | _ => cases h _ hs
  | case _ list body =>
    simp only [clausesInPlace, children, List.all_append, all_isClause_exprs, all_isClause_stmts h.2,
      Bool.and_self]
  | comm _ operation body =>
    simp only [clausesInPlace, children, List.all_append, all_isClause_init h.2.1,
      all_isClause_stmts h.2.2, Bool.and_self]
  | block b => exact all_isClause_stmts h
  | labeled _ _ inner => exact all_isClause_stmts fun s hs ↦ h s (Option.mem_toList.mp hs)
  | ret _ es | simple _ _ es => exact all_isClause_exprs es

/-- What is read from a source has its clauses in their places. -/
theorem clausesInPlace_of_wellShaped {n : Node} (h : n.WellShaped isDefault) :
    n.clausesInPlace = true := by
  match n with
  | .cond _ => exact clausesInPlace_cond h
  | .stmt _ => exact clausesInPlace_stmt h
  | .expr (.ident _) | .expr (.lit ..) | .expr (.selector ..) | .expr (.binary ..) => rfl
  | .expr (.composite type elements) =>
    simp only [clausesInPlace, children, List.all_append, all_isClause_exprs, Bool.and_self]
  | .expr (.call _ args) => exact all_isClause_exprs args
  | .expr (.funcLit body) => exact all_isClause_stmts h
  | .expr (.other parts) => exact all_isClause_exprs parts

end Node

/-- In the bodies of a source that can be read, clauses are in their places. -/
theorem clausesInPlace_of_readSource {source : ByteArray} {path : String} {file : SourceFile}
    (h : Source.readSource path source = .ok file) :
    ∀ f ∈ file.functions, ∀ body ∈ f.body, body.ClausesInPlace := by
  intro f hf body hbody
  obtain ⟨toks, c, hlaid, hc, rfl⟩ := Source.exists_block_of_readSource h hf hbody
  refine ⟨Source.Lower.isPlain_block source c, ?_⟩
  intro n hn
  exact Node.clausesInPlace_of_wellShaped
    (Source.View.forall_nodes_block (fun v hv ↦ Source.wellShaped_node hlaid hv) hc n hn)

/-! ## What the traversal finds -/

namespace Node

/-- Whether nothing at and below the node and outside error guards opens a level. -/
def OpensNothing (n : Node) : Prop := ∀ m ∈ n.trace (fun k ↦ !k.isGuard), m.opensLevel = false

/-- Nothing opens a level below a node exactly if the node does not and, unless it is a guard, none of
its children does. -/
theorem opensNothing_iff (n : Node) :
    n.OpensNothing ↔
      n.opensLevel = false ∧ (n.isGuard = false → ∀ m ∈ n.children, m.OpensNothing) := by
  unfold OpensNothing
  rw [trace_eq, List.forall_mem_cons]
  apply and_congr_right
  intro _
  cases n.isGuard with
  | true => simp
  | false => simp only [Bool.not_false, if_true, List.forall_mem_flatMap, forall_true_left]

/-- A node that opens a level is not flat. -/
theorem not_opensNothing {n : Node} (h : n.opensLevel = true) : ¬ n.OpensNothing := by
  intro hnothing
  have hopens := ((opensNothing_iff n).mp hnothing).1
  rw [hopens] at h
  exact Bool.false_ne_true h

theorem isFlat_of_mem_children {n m : Node} (hflat : n.isFlat = true)
    (hlit : ∀ body, n ≠ .expr (.funcLit body)) (hm : m ∈ n.children) : m.isFlat = true := by
  obtain ⟨es, hslots⟩ := slots_of_isFlat hflat hlit
  rw [← map_snd_slots, hslots, fixedExprs, List.map_map] at hm
  obtain ⟨e, -, rfl⟩ := List.mem_map.mp hm
  rfl

/-- A node of expressions opens nothing if and only if it holds no function literal. -/
theorem outerLiterals_eq_nil_iff {n : Node} (hflat : n.isFlat = true) :
    n.outerLiterals = [] ↔ n.OpensNothing := by
  induction n using parts_induction with
  | step n ih =>
    by_cases hlit : ∃ body, n = .expr (.funcLit body)
    · obtain ⟨body, rfl⟩ := hlit
      rw [outerLiterals_funcLit]
      exact iff_of_false (List.cons_ne_nil body []) (not_opensNothing rfl)
    · have hlit := not_exists.mp hlit
      calc n.outerLiterals = []
        _ ↔ ∀ m ∈ n.children, m.outerLiterals = [] := by
          rw [outerLiterals_eq_flatMap hlit, List.flatMap_eq_nil_iff]
        _ ↔ ∀ m ∈ n.children, m.OpensNothing :=
          forall₂_congr fun m hm ↦ ih m hm (isFlat_of_mem_children hflat hlit hm)
        _ ↔ n.OpensNothing := by
          rw [opensNothing_iff n, opensLevel_of_isFlat hflat hlit, isGuard_of_isFlat hflat]
          simp

/-- Where no level is opened and no clause is out of place, nothing decides. -/
theorem decisions_eq_zero_of_opensNothing {n : Node} (hnothing : n.OpensNothing)
    (hclause : n.isClause = false) (hclauses : ∀ m ∈ n.nodes, m.clausesInPlace = true) :
    n.decisions = 0 := by
  induction n using parts_induction with
  | step n ih =>
    obtain ⟨hopens, hparts⟩ := (opensNothing_iff n).mp hnothing
    cases hguard : n.isGuard with
    | true => exact decisions_eq_zero_of_isGuard hguard
    | false =>
      have hplain := isClause_of_mem_children hopens (hclauses n n.self_mem_nodes)
      rw [decisions_eq, isDecision_eq_false hopens hclause, hguard]
      simp only [Bool.false_eq_true, if_false, Nat.zero_add]
      apply List.sum_eq_zero
      intro k hk
      obtain ⟨m, hm, rfl⟩ := List.mem_map.mp hk
      exact ih m hm (hparts hguard m hm) (hplain m hm) fun k hk ↦
        hclauses k (nodes_subset_of_mem_children hm hk)

end Node

/-- A property of the walk that stops at guards is one of each statement. -/
theorem Block.forall_trace_iff (b : Block) :
    (∀ n ∈ b.trace (fun n ↦ !n.isGuard), n.opensLevel = false) ↔
      ∀ s ∈ b.stmts, (Node.ofStmt s).OpensNothing := by
  rw [Block.trace, traceList, List.forall_mem_flatMap]
  rfl

end Syntax

/-! ## What the walk for depth finds -/

namespace Spot

/-- The depth is zero exactly if no point lies above zero. -/
theorem depth_eq_zero_iff_points (p : Spot) :
    (p.deepest 0).depth = 0 ↔ ∀ q ∈ p.points 0, q.depth = 0 := by
  have hfirst := p.isFirstDeepest_deepest 0
  constructor
  · intro hzero q hq
    exact Nat.eq_zero_of_le_zero (hzero ▸ hfirst.depth_le hq)
  · intro hpoints
    exact hpoints _ hfirst.mem

/-- A spot has depth zero if its parts lie on its level and have depth zero. -/
theorem depth_eq_zero_iff (p : Spot) :
    (p.deepest 0).depth = 0 ↔ ∀ part ∈ p.parts, part.1 = 0 ∧ (part.2.deepest 0).depth = 0 := by
  rw [depth_eq_zero_iff_points, points_eq, List.forall_mem_cons, List.forall_mem_flatMap]
  simp only [true_and, Nat.zero_add]
  apply forall₂_congr
  intro part _
  constructor
  · intro hpoints
    have hrise : part.1 = 0 := by
      rw [points_eq, List.forall_mem_cons] at hpoints
      exact hpoints.1
    rw [hrise] at hpoints
    exact ⟨hrise, part.2.depth_eq_zero_iff_points.mpr hpoints⟩
  · rintro ⟨hrise, hdepth⟩
    rw [hrise]
    exact part.2.depth_eq_zero_iff_points.mp hdepth

/-- A block as a part one level up makes the depth positive, even if it is empty. -/
theorem depth_ne_zero {p : Spot} {b : Block} (h : (1, block b) ∈ p.parts) :
    ¬ (p.deepest 0).depth = 0 := by
  intro hzero
  exact absurd ((depth_eq_zero_iff p).mp hzero _ h).1 Nat.one_ne_zero

/-- The case of a statement without lists: only function literals in it could open a level. -/
theorem depth_eq_zero_iff_of_ofLiterals {s : Stmt} (hparts : (stmt s).parts = ofLiterals s)
    (hflat : (Node.ofStmt s).isFlat = true) :
    ((stmt s).deepest 0).depth = 0 ↔ (Node.ofStmt s).OpensNothing := by
  rw [depth_eq_zero_iff, hparts, ← Node.outerLiterals_eq_nil_iff hflat,
    List.eq_nil_iff_forall_not_mem, ofLiterals, List.forall_mem_map]
  simp only [Nat.one_ne_zero, false_and]
  rfl

/-- Both look at the statements that lie on the level of a block or label in the same way. -/
theorem depth_eq_zero_iff_of_ofStmts {s : Stmt} {stmts : List Stmt}
    (hparts : (stmt s).parts = ofStmts 0 stmts)
    (hchildren : (Node.ofStmt s).children = stmts.map Node.ofStmt)
    (hopens : (Node.ofStmt s).opensLevel = false) (hguard : (Node.ofStmt s).isGuard = false)
    (h : ∀ t ∈ stmts, ((stmt t).deepest 0).depth = 0 ↔ (Node.ofStmt t).OpensNothing) :
    ((stmt s).deepest 0).depth = 0 ↔ (Node.ofStmt s).OpensNothing := by
  rw [depth_eq_zero_iff, Node.opensNothing_iff, hparts, hchildren, hopens, hguard, ofStmts,
    List.forall_mem_map, List.forall_mem_map]
  simp only [true_and, forall_true_left]
  exact forall₂_congr h

/-- The case of a conditional: it is flat only as a guard. -/
theorem depth_cond_eq_zero_iff (c : Conditional) :
    ((stmt (.cond c)).deepest 0).depth = 0 ↔ (Node.cond c).OpensNothing := by
  cases hguard : c.isGuard with
  | true =>
    have hparts : (stmt (.cond c)).parts = [] := if_pos hguard
    rw [depth_eq_zero_iff, hparts, Node.opensNothing_iff]
    simp [Node.opensLevel, Node.isGuard, hguard]
  | false =>
    have hbody : (1, block c.body) ∈ (stmt (.cond c)).parts := by
      simp [parts, ofConditional, hguard]
    exact iff_of_false (depth_ne_zero hbody) (Node.not_opensNothing (by simp [Node.opensLevel, hguard]))

/-- The walk for depth stays on the level of a statement, if it is no clause, exactly where the traversal
opens none. -/
theorem depth_stmt_eq_zero_iff {s : Stmt} (hplain : s.isPlain = true)
    (hclauses : ∀ n ∈ (Node.ofStmt s).nodes, n.clausesInPlace = true) :
    ((stmt s).deepest 0).depth = 0 ↔ (Node.ofStmt s).OpensNothing := by
  -- By induction over spots: labels and blocks pass on to statements of their own level.
  generalize hp : stmt s = p
  induction p using parts_induction generalizing s with
  | step p ih =>
    subst hp
    have hlevel {stmts : List Stmt} (hparts : (stmt s).parts = ofStmts 0 stmts)
        (hchildren : (Node.ofStmt s).children = stmts.map Node.ofStmt)
        (hopens : (Node.ofStmt s).opensLevel = false) (hguard : (Node.ofStmt s).isGuard = false) :
        ((stmt s).deepest 0).depth = 0 ↔ (Node.ofStmt s).OpensNothing := by
      apply depth_eq_zero_iff_of_ofStmts hparts hchildren hopens hguard
      intro t ht
      have hchild : Node.ofStmt t ∈ (Node.ofStmt s).children :=
        hchildren ▸ List.mem_map_of_mem ht
      have hclause := Node.isClause_of_mem_children hopens
        (hclauses _ (Node.self_mem_nodes _)) _ hchild
      rw [Node.isClause_ofStmt, Bool.not_eq_false'] at hclause
      exact ih (0, .stmt t) (hparts ▸ List.mem_map_of_mem ht) hclause
        (fun n hn ↦ hclauses n (Node.nodes_subset_of_mem_children hchild hn)) rfl
    cases s with
    | cond c => exact depth_cond_eq_zero_iff c
    | loop | switch | select =>
      exact iff_of_false (depth_ne_zero List.mem_cons_self) (Node.not_opensNothing rfl)
    -- A clause opens a level for its statements, but is none of the constructs that are looked for.
    | case | comm => cases hplain
    | block | labeled => exact hlevel rfl rfl rfl rfl
    | ret | simple => exact depth_eq_zero_iff_of_ofLiterals rfl rfl

end Spot

/-! ## Flat bodies -/

namespace Syntax.Block

/-- A body is flat exactly if each of its statements is. -/
theorem maxDepth_eq_zero_iff_stmts (b : Block) :
    b.maxDepth.depth = 0 ↔ ∀ s ∈ b.stmts, ((Spot.stmt s).deepest 0).depth = 0 := by
  have hblock := (Spot.block b).depth_eq_zero_iff
  rw [Spot.parts, Spot.ofStmts, List.forall_mem_map] at hblock
  simp only [true_and] at hblock
  exact hblock

/-- Depth zero means that nothing below the body opens a level. -/
theorem maxDepth_eq_zero_iff_opensNothing {b : Block} (h : b.ClausesInPlace) :
    b.maxDepth.depth = 0 ↔ ∀ s ∈ b.stmts, (Node.ofStmt s).OpensNothing := by
  rw [maxDepth_eq_zero_iff_stmts]
  apply forall₂_congr
  intro s hs
  exact Spot.depth_stmt_eq_zero_iff (h.1 s hs) (h.of_mem hs)

/-- Without an open level there are no decisions, and complexity is one. -/
theorem complexity_eq_one_of_opensNothing {b : Block} (h : b.ClausesInPlace)
    (hnothing : ∀ s ∈ b.stmts, (Node.ofStmt s).OpensNothing) : b.complexity = 1 := by
  rw [complexity_eq_decisions, Node.ofBlock, List.map_map, Nat.add_eq_left]
  apply List.sum_eq_zero
  intro k hk
  obtain ⟨s, hs, rfl⟩ := List.mem_map.mp hk
  apply Node.decisions_eq_zero_of_opensNothing (hnothing s hs) _ (h.of_mem hs)
  rw [Node.isClause_ofStmt, h.1 s hs]
  rfl

/-- A body has depth zero if and only if the traversal that leaves out what lies in error guards meets no
other conditional, no loop, switch or select and no function literal; then its complexity is one. -/
theorem maxDepth_eq_zero_iff_flat (b : Block) (h : b.ClausesInPlace) :
    (b.maxDepth.depth = 0 ↔ ∀ n ∈ b.trace (fun n ↦ !n.isGuard), n.opensLevel = false) ∧
      (b.maxDepth.depth = 0 → b.complexity = 1) := by
  rw [forall_trace_iff, maxDepth_eq_zero_iff_opensNothing h]
  exact ⟨Iff.rfl, complexity_eq_one_of_opensNothing h⟩

end Syntax.Block

/-- A label, a block and an error guard with a function literal in its first statement. -/
def flatBody : Block :=
  .mk ⟨1, 10, 9⟩
    [.labeled ⟨2, 1, 11⟩ "again" (some (.block (.mk ⟨3, 2, 19⟩
      [.cond (.mk ⟨4, 3, 23⟩
        (some (.simple ⟨4, 6, 26⟩ .assign [.ident "err", .call (.funcLit (.mk ⟨4, 24, 44⟩
          [.loop ⟨4, 26, 46⟩ .counted [] (.mk ⟨4, 30, 50⟩ [])])) []]))
        (.binary "!=" (.ident "err") (.ident "nil"))
        (.mk ⟨4, 51, 71⟩ [.ret ⟨4, 53, 73⟩ [.ident "err"]]) .absent)])))]

/-- A switch with one clause, which holds one statement. -/
def switchBody : Block :=
  .mk ⟨1, 10, 9⟩
    [.switch ⟨2, 2, 12⟩ .expression none (some (.ident "x")) (.mk ⟨2, 11, 21⟩
      [.case ⟨3, 2, 24⟩ [.lit .int "1"] [.simple ⟨3, 10, 32⟩ .expression [.call (.ident "f") []]]])]

/-- A body with a guard and nothing else is flat, and one with a switch is not. -/
theorem Syntax.Block.maxDepth_eq_zero_iff_flat_guard_and_clause :
    flatBody.ClausesInPlace ∧ flatBody.maxDepth.depth = 0 ∧ flatBody.complexity = 1 ∧
      (∀ n ∈ flatBody.trace (fun n ↦ !n.isGuard), n.opensLevel = false) ∧
      switchBody.ClausesInPlace ∧ switchBody.maxDepth.depth = 2 ∧
      ¬ ∀ n ∈ switchBody.trace (fun n ↦ !n.isGuard), n.opensLevel = false := by
  have hflat : flatBody.ClausesInPlace := by decide +kernel
  have hswitch : switchBody.ClausesInPlace := by decide +kernel
  have hzero : flatBody.maxDepth.depth = 0 := by decide +kernel
  have htwo : switchBody.maxDepth.depth = 2 := by decide +kernel
  obtain ⟨hiff, hone⟩ := maxDepth_eq_zero_iff_flat flatBody hflat
  refine ⟨hflat, hzero, hone hzero, hiff.mp hzero, hswitch, htwo, ?_⟩
  rw [← (maxDepth_eq_zero_iff_flat switchBody hswitch).1, htwo]
  exact Nat.succ_ne_zero 1

end GoComplexity
