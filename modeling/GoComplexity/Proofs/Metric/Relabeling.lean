import GoComplexity.Proofs.Guard.Exemption
import GoComplexity.Proofs.Syntax.Relabeling

/-!
# Structural metrics under relabeling

Error guards are recognized by comparing names with each other and with `nil` and `false`. A relabeling
that keeps these comparisons keeps every verdict, and with the verdicts the complexity and the nesting
depth of a body, wherever its parts stand. So neither depends on the names that a program uses.
-/

namespace GoComplexity

namespace Syntax

/-- Whether a relabeling keeps names apart and the names of the zero values. -/
structure Relabeling.KeepsNames (ρ : Relabeling) : Prop where
  injective : Function.Injective ρ.name
  nil : ρ.name "nil" = "nil"
  false : ρ.name "false" = "false"

variable {ρ : Relabeling}

namespace Relabeling.KeepsNames

theorem eq_nil_iff (h : ρ.KeepsNames) (name : String) : ρ.name name = "nil" ↔ name = "nil" :=
  ⟨fun heq ↦ h.injective (heq.trans h.nil.symm), fun heq ↦ heq ▸ h.nil⟩

theorem eq_false_iff (h : ρ.KeepsNames) (name : String) : ρ.name name = "false" ↔ name = "false" :=
  ⟨fun heq ↦ h.injective (heq.trans h.false.symm), fun heq ↦ heq ▸ h.false⟩

end Relabeling.KeepsNames

/-! ## Verdicts -/

theorem Expr.ident?_relabel (e : Expr) : (e.relabel ρ).ident? = e.ident?.map ρ.name := by
  cases e <;> rfl

/-- A name tested against `nil` is still tested, under its new name. -/
theorem Expr.notNil?_relabel (h : ρ.KeepsNames) (e : Expr) :
    (e.relabel ρ).notNil? = e.notNil?.map ρ.name := by
  cases e with
  | binary op left right =>
    simp only [Expr.relabel, Expr.notNil?, Expr.ident?_relabel]
    by_cases hop : op = "!="
    · cases left.ident? with
      | none => simp [hop]
      | some x =>
        cases right.ident? with
        | none => simp [hop]
        | some y =>
          simp only [hop, ne_eq, not_true_eq_false, if_false, Option.map_some, h.eq_nil_iff]
          split_ifs <;> rfl
    · simp [hop]
  | _ => rfl

/-- Zero values do not depend on names other than `nil` and `false`. -/
theorem Expr.isZeroValue_relabel (h : ρ.KeepsNames) (e : Expr) :
    (e.relabel ρ).isZeroValue = e.isZeroValue := by
  cases e with
  | ident name =>
    rw [Bool.eq_iff_iff]
    simp [Expr.relabel, Expr.isZeroValue, h.eq_nil_iff, h.eq_false_iff]
  | composite type elements => simp [Expr.relabel, Expr.isZeroValue]
  | _ => rfl

/-- An expression propagates the renamed error exactly if it propagated the error. -/
theorem Expr.propagates_relabel (h : ρ.KeepsNames) (name : String) (e : Expr) :
    (e.relabel ρ).propagates (ρ.name name) = e.propagates name := by
  cases e with
  | ident last =>
    rw [Bool.eq_iff_iff]
    simp [Expr.relabel, Expr.propagates, h.injective.eq_iff]
  | _ => rfl

/-- The results of a return propagate the renamed error exactly if they propagated the error. -/
theorem propagatesError_map_relabel (h : ρ.KeepsNames) (name : String) (results : List Expr) :
    propagatesError (ρ.name name) (results.map (Expr.relabel ρ)) = propagatesError name results := by
  unfold propagatesError
  rw [List.getLast?_map, ← List.map_dropLast, List.all_map]
  cases results.getLast? with
  | none => rfl
  | some last =>
    simp only [Option.map_some, last.propagates_relabel h]
    congr 2
    funext e
    exact e.isZeroValue_relabel h

theorem Alternative.relabel_eq_absent_iff (a : Alternative) : a.relabel ρ = .absent ↔ a = .absent := by
  cases a <;> simp [Alternative.relabel]

/-- Only returns become returns. -/
theorem Stmt.relabel_eq_ret_iff (s : Stmt) (pos : Position) (results : List Expr) :
    s.relabel ρ = .ret pos results ↔
      ∃ pos₀ results₀, s = .ret pos₀ results₀ ∧ pos = ρ.place pos₀ ∧
        results = results₀.map (Expr.relabel ρ) := by
  cases s with
  | ret pos₀ results₀ =>
    simp only [Stmt.relabel, relabelExprs_eq_map, Stmt.ret.injEq]
    constructor
    · rintro ⟨rfl, rfl⟩
      exact ⟨pos₀, results₀, ⟨rfl, rfl⟩, rfl, rfl⟩
    · rintro ⟨_, _, ⟨rfl, rfl⟩, rfl, rfl⟩
      exact ⟨rfl, rfl⟩
  | _ => simp [Stmt.relabel]

/-- Whether a conditional is an error guard does not depend on its names and positions. -/
theorem Conditional.isGuard_relabel (h : ρ.KeepsNames) (c : Conditional) :
    (c.relabel ρ).isGuard = c.isGuard := by
  rw [Bool.eq_iff_iff, Conditional.isGuard_iff, Conditional.isGuard_iff]
  simp only [Conditional.cond_relabel, Conditional.alternative_relabel, Conditional.body_relabel,
    Block.stmts_relabel, Expr.notNil?_relabel h, Alternative.relabel_eq_absent_iff,
    List.map_eq_singleton_iff, Stmt.relabel_eq_ret_iff]
  constructor
  · rintro ⟨_, _, _, hrenamed, habsent, ⟨s, hbody, pos, results, rfl, rfl, rfl⟩, hresults⟩
    obtain ⟨name, hname, rfl⟩ := Option.map_eq_some_iff.mp hrenamed
    rw [propagatesError_map_relabel h] at hresults
    exact ⟨name, pos, results, hname, habsent, hbody, hresults⟩
  · rintro ⟨name, pos, results, hname, habsent, hbody, hresults⟩
    rw [← propagatesError_map_relabel h] at hresults
    exact ⟨ρ.name name, ρ.place pos, results.map (Expr.relabel ρ), by rw [hname, Option.map_some],
      habsent, ⟨_, hbody, pos, results, rfl, rfl, rfl⟩, hresults⟩

namespace Node

/-- The verdict on a conditional does not depend on names or places. -/
theorem isGuard_relabel (h : ρ.KeepsNames) (n : Node) : (n.relabel ρ).isGuard = n.isGuard := by
  cases n with
  | cond c => exact c.isGuard_relabel h
  | stmt s => rfl
  | expr e => rfl

theorem isDecision_relabel (h : ρ.KeepsNames) (n : Node) :
    (n.relabel ρ).isDecision = n.isDecision := by
  cases n with
  | cond c => exact congrArg not (c.isGuard_relabel h)
  | stmt s => cases s <;> simp [relabel, Stmt.relabel, isDecision]
  | expr e => rfl

theorem conditional?_relabel (n : Node) :
    (n.relabel ρ).conditional? = n.conditional?.map (Conditional.relabel ρ) := by
  cases n <;> rfl

end Node

/-! ## Metrics of a body -/

/-- The conditionals of a renamed body are the renamed conditionals, in the same order. -/
theorem Block.conditionals_relabel (b : Block) :
    (b.relabel ρ).conditionals = b.conditionals.map (Conditional.relabel ρ) := by
  have hnodes : (b.relabel ρ).nodes = b.nodes.map (Node.relabel ρ) :=
    b.trace_relabel ρ fun _ ↦ rfl
  rw [Block.conditionals, hnodes, List.filterMap_map, Block.conditionals, List.map_filterMap]
  exact List.filterMap_congr fun n _ ↦ n.conditional?_relabel

/-- All verdicts of a body are kept by a change of names and places. -/
theorem Block.map_isGuard_relabel (h : ρ.KeepsNames) (b : Block) :
    (b.relabel ρ).conditionals.map Conditional.isGuard = b.conditionals.map Conditional.isGuard := by
  rw [Block.conditionals_relabel, List.map_map]
  exact List.map_congr_left fun c _ ↦ c.isGuard_relabel h

/-- Complexity does not depend on names and places. -/
theorem Block.complexity_relabel (h : ρ.KeepsNames) (b : Block) :
    (b.relabel ρ).complexity = b.complexity := by
  have hkeep (n : Node) : (!(n.relabel ρ).isGuard) = !n.isGuard := congrArg not (n.isGuard_relabel h)
  rw [Block.complexity, b.trace_relabel ρ hkeep, List.countP_map, Block.complexity]
  congr 2
  funext n
  exact n.isDecision_relabel h

end Syntax

open Syntax

variable {ρ : Relabeling}

namespace Spot

variable (ρ) in
def relabel : Spot → Spot
  | .block b => .block (b.relabel ρ)
  | .stmt s => .stmt (s.relabel ρ)
  | .elseIf c => .elseIf (c.relabel ρ)

variable (ρ) in
/-- A part of a spot after relabeling. -/
def relabelPart (part : ℕ × Spot) : ℕ × Spot := (part.1, part.2.relabel ρ)

theorem pos_relabel (p : Spot) : (p.relabel ρ).pos = ρ.place p.pos := by
  cases p with
  | block b => exact b.lbrace_relabel ρ
  | stmt s => exact s.pos_relabel ρ
  | elseIf c => exact c.pos_relabel ρ

theorem ofStmts_map_relabel (rise : ℕ) (stmts : List Stmt) :
    ofStmts rise (stmts.map (Stmt.relabel ρ)) = (ofStmts rise stmts).map (relabelPart ρ) := by
  simp [ofStmts, relabelPart, relabel]

theorem ofLiterals_relabel (s : Stmt) :
    ofLiterals (s.relabel ρ) = (ofLiterals s).map (relabelPart ρ) := by
  rw [ofLiterals, Stmt.outerLiterals, Node.ofStmt_relabel, Node.outerLiterals_relabel]
  simp [ofLiterals, Stmt.outerLiterals, relabelPart, relabel]

/-- The parts of a conditional that the walk sees are the same ones, relabeled. -/
theorem ofConditional_relabel (h : ρ.KeepsNames) (c : Conditional) :
    ofConditional (c.relabel ρ) = (ofConditional c).map (relabelPart ρ) := by
  rw [ofConditional, ofConditional, c.isGuard_relabel h]
  by_cases hguard : c.isGuard = true
  · rw [if_pos hguard, if_pos hguard]
    rfl
  rw [if_neg hguard, if_neg hguard, List.map_append, List.map_cons, Conditional.init_relabel,
    Conditional.body_relabel, Conditional.alternative_relabel]
  have hinit : (c.init.map (Stmt.relabel ρ)).toList.flatMap ofLiterals =
      (c.init.toList.flatMap ofLiterals).map (relabelPart ρ) := by
    cases c.init with
    | none => rfl
    | some s => simpa using ofLiterals_relabel s
  have halternative : ofAlternative (c.alternative.relabel ρ) =
      (ofAlternative c.alternative).map (relabelPart ρ) := by
    cases c.alternative <;> rfl
  rw [hinit, halternative]
  rfl

/-- The step for depth: the parts of a relabeled statement are its relabeled parts. -/
theorem parts_stmt_relabel (h : ρ.KeepsNames) (s : Stmt) :
    (stmt (s.relabel ρ)).parts = (stmt s).parts.map (relabelPart ρ) := by
  match s with
  | .cond c => exact ofConditional_relabel h c
  | .loop .. => rfl
  | .switch .. => rfl
  | .select .. => rfl
  | .case _ _ body =>
    rw [Stmt.relabel, relabelStmts_eq_map]
    exact ofStmts_map_relabel 1 body
  | .comm _ _ body =>
    rw [Stmt.relabel, relabelStmts_eq_map]
    exact ofStmts_map_relabel 1 body
  | .block b =>
    simp only [Stmt.relabel, parts, Block.stmts_relabel]
    exact ofStmts_map_relabel 0 b.stmts
  | .labeled _ _ inner =>
    simp only [Stmt.relabel, parts, relabelStmt?_eq_map, Option.toList_map]
    exact ofStmts_map_relabel 0 inner.toList
  | .ret pos results => exact ofLiterals_relabel (.ret pos results)
  | .simple pos kind exprs => exact ofLiterals_relabel (.simple pos kind exprs)

/-- The parts of a relabeled spot are its parts, relabeled. -/
theorem parts_relabel (h : ρ.KeepsNames) (p : Spot) :
    (p.relabel ρ).parts = p.parts.map (relabelPart ρ) := by
  cases p with
  | block b =>
    simp only [relabel, parts, Block.stmts_relabel]
    exact ofStmts_map_relabel 0 b.stmts
  | elseIf c => exact ofConditional_relabel h c
  | stmt s => exact parts_stmt_relabel h s

end Spot

/-- Where a depth is reached after relabeling. -/
def Deepest.relabel (ρ : Relabeling) (d : Deepest) : Deepest := ⟨ρ.place d.pos, d.depth⟩

/-- Which of two points is kept is decided by their depths alone. -/
theorem Deepest.absorb_relabel (a b : Deepest) :
    (a.relabel ρ).absorb (b.relabel ρ) = (a.absorb b).relabel ρ :=
  (apply_ite (relabel ρ) (a.depth < b.depth) b a).symm

/-- The depth of a spot stays, and is first reached at the same place, relabeled. -/
theorem Spot.deepest_relabel (h : ρ.KeepsNames) (p : Spot) (depth : ℕ) :
    (p.relabel ρ).deepest depth = (p.deepest depth).relabel ρ := by
  induction p using Spot.parts_induction generalizing depth with
  | step p ih =>
    have hfold (parts : List (ℕ × Spot))
        (hparts : ∀ part ∈ parts, ∀ depth, (part.2.relabel ρ).deepest depth =
          (part.2.deepest depth).relabel ρ) (best : Deepest) :
        foldParts depth (best.relabel ρ) (parts.map (relabelPart ρ)) =
          (foldParts depth best parts).relabel ρ := by
      induction parts generalizing best with
      | nil => rfl
      | cons part parts ih =>
        obtain ⟨hpart, hrest⟩ := List.forall_mem_cons.mp hparts
        have hstep := ih hrest (best.absorb (part.2.deepest (depth + part.1)))
        rw [← Deepest.absorb_relabel, ← hpart] at hstep
        exact hstep
    rw [deepest_eq, deepest_eq depth p, pos_relabel, parts_relabel h]
    exact hfold p.parts (fun part hpart depth ↦ ih part hpart depth) ⟨p.pos, depth⟩

/-- The depth stays, and the deepest point moves along with the places. -/
theorem Syntax.Block.maxDepth_relabel (h : ρ.KeepsNames) (b : Block) :
    (b.relabel ρ).maxDepth = b.maxDepth.relabel ρ :=
  Spot.deepest_relabel h (.block b) 0

/-! ## Names -/

/-- Other names in the place of identifiers, and all positions as they are. -/
def Syntax.Relabeling.ofNames (rename : String → String) : Relabeling := ⟨rename, id⟩

/-- The structural metrics do not depend on names. After a renaming that keeps names apart and leaves
`nil` and `false` alone, the conditionals are the same ones, renamed, each with its verdict, and the
depth with its position and the complexity stay. -/
theorem metrics_of_renamed (b : Block) (rename : String → String)
    (hinjective : Function.Injective rename) (hnil : rename "nil" = "nil")
    (hfalse : rename "false" = "false") :
    (b.relabel (.ofNames rename)).conditionals =
        b.conditionals.map (Conditional.relabel (.ofNames rename)) ∧
      (b.relabel (.ofNames rename)).conditionals.map Conditional.isGuard =
        b.conditionals.map Conditional.isGuard ∧
      (b.relabel (.ofNames rename)).maxDepth = b.maxDepth ∧
      (b.relabel (.ofNames rename)).complexity = b.complexity := by
  have hkeeps : (Relabeling.ofNames rename).KeepsNames := ⟨hinjective, hnil, hfalse⟩
  exact ⟨b.conditionals_relabel, b.map_isGuard_relabel hkeeps, b.maxDepth_relabel hkeeps,
    b.complexity_relabel hkeeps⟩

/-- The error of a body and another name change places. -/
theorem metrics_of_renamed_guardedBody :
    Function.Injective (Equiv.swap "err" "failure") ∧
      Equiv.swap "err" "failure" "nil" = "nil" ∧ Equiv.swap "err" "failure" "false" = "false" ∧
      (guardedBody.relabel (.ofNames (Equiv.swap "err" "failure"))).conditionals.map
        Conditional.isGuard = [true, true, false, true, true] ∧
      (guardedBody.relabel (.ofNames (Equiv.swap "err" "failure"))).maxDepth = ⟨⟨5, 10, 0⟩, 1⟩ ∧
      (guardedBody.relabel (.ofNames (Equiv.swap "err" "failure"))).complexity = 2 := by
  have hnil : Equiv.swap "err" "failure" "nil" = "nil" :=
    Equiv.swap_apply_of_ne_of_ne (by decide) (by decide)
  have hfalse : Equiv.swap "err" "failure" "false" = "false" :=
    Equiv.swap_apply_of_ne_of_ne (by decide) (by decide)
  obtain ⟨-, hverdicts, hdepth, hcomplexity⟩ :=
    metrics_of_renamed guardedBody (Equiv.swap "err" "failure") (Equiv.injective _) hnil hfalse
  exact ⟨Equiv.injective _, hnil, hfalse, hverdicts.trans (by decide +kernel),
    hdepth.trans (by decide +kernel), hcomplexity.trans (by decide +kernel)⟩

end GoComplexity
