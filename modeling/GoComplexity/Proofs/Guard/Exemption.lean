import GoComplexity.Proofs.Guard.Erasure
import GoComplexity.Proofs.Metric.Parts

/-!
# Exemption of error guards

The two structural metrics walk a body in different ways, one keeping track of levels and one pruning
a pre-order walk. Both leave out the same guards: they give the same for a body and for the body with
its guards erased.
-/

namespace GoComplexity

namespace Syntax

/-! ## Complexity -/

namespace Node

/-- What is put in the place of a guard decides nothing, as the guard itself does. -/
theorem decisions_eraseSlot {slot : Slot}
    (h : slot.2.eraseGuards.decisions = slot.2.decisions) :
    (eraseSlot slot).decisions = slot.2.decisions := by
  by_cases herased : isErased slot = true
  · obtain ⟨pos, hslot⟩ := eraseSlot_of_isErased herased
    rw [hslot, decisions_eq_zero_of_isGuard (Bool.and_eq_true_iff.mp herased).2, decisions_eq]
    rfl
  · rw [eraseSlot_of_not_isErased herased, h]

/-- A slot that is erased counted nothing before and counts nothing after. -/
theorem map_decisions_eraseSlot {slots : List Slot}
    (h : ∀ slot ∈ slots, slot.2.eraseGuards.decisions = slot.2.decisions) :
    (slots.map eraseSlot).map decisions = (slots.map Prod.snd).map decisions := by
  rw [List.map_map, List.map_map]
  exact List.map_congr_left fun slot hslot ↦ decisions_eraseSlot (h slot hslot)

/-- The step for complexity: a node counts the same decisions after erasing. -/
theorem decisions_eraseGuards (n : Node) : n.eraseGuards.decisions = n.decisions := by
  induction n using parts_induction with
  | step n ih =>
    rw [decisions_eq, decisions_eq n, isDecision_eraseGuards, isGuard_eraseGuards,
      children_eraseGuards, map_decisions_eraseSlot fun slot hslot ↦ ih _ (snd_mem_children hslot),
      map_snd_slots]

end Node

/-- Guards add nothing to the complexity. -/
theorem Block.complexity_eraseGuards (b : Block) : b.eraseGuards.complexity = b.complexity := by
  have hsnd : (Node.elements b.stmts).map Prod.snd = Node.ofBlock b := by
    simp [Node.elements, Node.ofBlock, Function.comp_def]
  rw [complexity_eq_decisions, complexity_eq_decisions, Node.ofBlock_eraseGuards,
    Node.map_decisions_eraseSlot fun slot _ ↦ slot.2.decisions_eraseGuards, hsnd]

/-! ## Remaining conditionals -/

namespace Node

/-- The conditionals at and below a node in pre-order, without the erased guards and what lies below
them. -/
def remaining (n : Node) : List Conditional :=
  n.conditional?.toList ++
    (n.slots.filter fun slot ↦ !isErased slot).attach.flatMap fun slot ↦ slot.1.2.remaining
termination_by n.weight
decreasing_by exact weight_lt_of_mem_children (snd_mem_children (List.mem_of_mem_filter slot.2))

/-- The conditionals that remain below a node are its own and those of the slots that are not erased.
-/
theorem remaining_eq (n : Node) :
    n.remaining = n.conditional?.toList ++
      (n.slots.filter fun slot ↦ !isErased slot).flatMap fun slot ↦ slot.2.remaining := by
  rw [remaining, List.flatMap_subtype fun slot _ ↦ (rfl : _ = slot.2.remaining),
    List.unattach_attach]

theorem conditional?_eraseGuards (n : Node) :
    n.eraseGuards.conditional? = n.conditional?.map Conditional.eraseGuards := by
  cases n <;> rfl

theorem filterMap_conditional?_nodes (n : Node) :
    n.nodes.filterMap conditional? =
      n.conditional?.toList ++ n.children.flatMap fun m ↦ m.nodes.filterMap conditional? := by
  rw [nodes_eq, List.filterMap_cons, List.filterMap_flatMap]
  cases n.conditional? <;> rfl

/-- The conditionals of erased parts are those that remain in the parts. -/
theorem flatMap_eraseSlot_conditionals {slots : List Slot}
    (h : ∀ slot ∈ slots, slot.2.eraseGuards.nodes.filterMap conditional? =
      slot.2.remaining.map Conditional.eraseGuards) :
    ((slots.map eraseSlot).flatMap fun m ↦ m.nodes.filterMap conditional?) =
      ((slots.filter fun slot ↦ !isErased slot).flatMap fun slot ↦ slot.2.remaining).map
        Conditional.eraseGuards := by
  induction slots with
  | nil => rfl
  | cons slot rest ih =>
    obtain ⟨hslot, hrest⟩ := List.forall_mem_cons.mp h
    rw [List.map_cons, List.flatMap_cons, ih hrest]
    by_cases herased : isErased slot = true
    · obtain ⟨pos, hempty⟩ := eraseSlot_of_isErased herased
      rw [hempty, filterMap_conditional?_nodes]
      simp [herased, conditional?, children]
    · rw [eraseSlot_of_not_isErased herased, hslot]
      simp [herased]

/-- After erasing, the conditionals are the remaining ones, each erased inside. -/
theorem conditionals_eraseGuards (n : Node) :
    n.eraseGuards.nodes.filterMap conditional? = n.remaining.map Conditional.eraseGuards := by
  induction n using parts_induction with
  | step n ih =>
    rw [filterMap_conditional?_nodes, children_eraseGuards, remaining_eq, List.map_append,
      flatMap_eraseSlot_conditionals fun slot hslot ↦ ih _ (snd_mem_children hslot),
      conditional?_eraseGuards, Option.toList_map]

end Node

/-- The conditionals of a body in pre-order. -/
def Block.conditionals (b : Block) : List Conditional := b.nodes.filterMap Node.conditional?

/-- The conditionals of a body in pre-order, without the erased guards and what lies below them. -/
def Block.remaining (b : Block) : List Conditional :=
  ((Node.elements b.stmts).filter fun slot ↦ !Node.isErased slot).flatMap fun slot ↦
    slot.2.remaining

theorem Block.conditionals_eraseGuards (b : Block) :
    b.eraseGuards.conditionals = b.remaining.map Conditional.eraseGuards := by
  unfold Block.conditionals
  rw [Block.nodes_eq, List.filterMap_flatMap, Node.ofBlock_eraseGuards]
  exact Node.flatMap_eraseSlot_conditionals fun slot _ ↦ slot.2.conditionals_eraseGuards

/-! ## Nesting depth -/

namespace Node

/-- Whether the parts of a node are expressions, function literals apart. -/
def isFlat : Node → Bool
  | .stmt (.ret ..) => true
  | .stmt (.simple ..) => true
  | .expr _ => true
  | _ => false

/-- A node without statement lists has expressions in its slots, none of which is erased itself. -/
theorem slots_of_isFlat {n : Node} (hflat : n.isFlat = true)
    (hlit : ∀ body, n ≠ .expr (.funcLit body)) : ∃ es, n.slots = fixedExprs es := by
  match n with
  | .stmt (.ret _ results) => exact ⟨results, rfl⟩
  | .stmt (.simple _ _ exprs) => exact ⟨exprs, rfl⟩
  | .expr (.ident _) => exact ⟨[], rfl⟩
  | .expr (.lit _ _) => exact ⟨[], rfl⟩
  | .expr (.composite type elements) =>
    exact ⟨type.toList ++ elements, by simp [slots, fixedExprs]⟩
  | .expr (.call callee args) => exact ⟨callee :: args, rfl⟩
  | .expr (.selector operand _) => exact ⟨[operand], rfl⟩
  | .expr (.funcLit body) => exact absurd rfl (hlit body)
  | .expr (.binary _ left right) => exact ⟨[left, right], rfl⟩
  | .expr (.other parts) => exact ⟨parts, rfl⟩

theorem eraseGuards_ne_funcLit {n : Node} (hlit : ∀ body, n ≠ .expr (.funcLit body)) (body : Block) :
    n.eraseGuards ≠ .expr (.funcLit body) := by
  match n with
  | .cond _ => simp [eraseGuards]
  | .stmt _ => simp [eraseGuards]
  | .expr e =>
    cases e with
    | funcLit b => exact absurd rfl (hlit b)
    | _ => simp [eraseGuards, Expr.eraseGuards]

/-- Erasing goes into the outer function literals and leaves them where they are. -/
theorem outerLiterals_eraseGuards {n : Node} (hflat : n.isFlat = true) :
    n.eraseGuards.outerLiterals = n.outerLiterals.map Block.eraseGuards := by
  induction n using parts_induction with
  | step n ih =>
    by_cases hlit : ∃ body, n = .expr (.funcLit body)
    · obtain ⟨body, rfl⟩ := hlit
      rw [outerLiterals_funcLit]
      exact outerLiterals_funcLit body.eraseGuards
    · have hlit := not_exists.mp hlit
      obtain ⟨es, hslots⟩ := slots_of_isFlat hflat hlit
      have hchildren : n.children = es.map expr := by
        rw [← map_snd_slots, hslots, fixedExprs, List.map_map]
        rfl
      rw [outerLiterals_eq_flatMap hlit, outerLiterals_eq_flatMap (eraseGuards_ne_funcLit hlit),
        children_eraseGuards, hslots, hchildren, map_eraseSlot_fixedExprs, List.map_flatMap,
        List.map_map, List.flatMap_map, List.flatMap_map]
      apply List.flatMap_congr
      intro e he
      exact ih (.expr e) (hchildren ▸ List.mem_map_of_mem he) rfl

/-- Whether the first part of a conditional is a simple statement, if there is one. -/
def hasSimpleInit : Node → Bool
  | .cond c =>
    match c.init with
    | none => true
    | some (.simple ..) => true
    | some _ => false
  | _ => true

end Node

/-- Whether conditionals start with simple statements only. -/
def Block.SimpleInits (b : Block) : Prop := ∀ n ∈ b.nodes, n.hasSimpleInit = true

instance (b : Block) : Decidable b.SimpleInits :=
  inferInstanceAs (Decidable (∀ n ∈ b.nodes, n.hasSimpleInit = true))

end Syntax

open Syntax

namespace Spot

def eraseGuards : Spot → Spot
  | .block b => .block b.eraseGuards
  | .stmt s => .stmt s.eraseElement
  | .elseIf c => .elseIf c.eraseGuards

/-- A part of a spot after erasing. -/
def erasePart (part : ℕ × Spot) : ℕ × Spot := (part.1, part.2.eraseGuards)

theorem pos_eraseGuards (p : Spot) : p.eraseGuards.pos = p.pos := by
  cases p with
  | block b => cases b; rfl
  | elseIf c => cases c; rfl
  | stmt s =>
    change s.eraseElement.pos = s.pos
    by_cases hguard : s.isGuard = true
    · rw [Stmt.eraseElement_of_isGuard hguard]
      rfl
    · rw [Stmt.eraseElement_of_not_isGuard hguard]
      match s with
      | .cond (.mk ..) => rfl
      | .block (.mk ..) => rfl
      | .loop .. => rfl
      | .switch .. => rfl
      | .select .. => rfl
      | .case .. => rfl
      | .comm .. => rfl
      | .labeled .. => rfl
      | .ret .. => rfl
      | .simple .. => rfl

/-- Erasing the statements of a list erases the parts that the depth walk sees in it. -/
theorem ofStmts_map_eraseElement (rise : ℕ) (stmts : List Stmt) :
    ofStmts rise (stmts.map Stmt.eraseElement) = (ofStmts rise stmts).map erasePart := by
  simp [ofStmts, erasePart, eraseGuards]

/-- The literals that the walk finds in a plain statement are found again, erased inside. -/
theorem ofLiterals_eraseGuards {s : Stmt} (hflat : (Node.ofStmt s).isFlat = true) :
    ofLiterals s.eraseGuards = (ofLiterals s).map erasePart := by
  unfold ofLiterals Stmt.outerLiterals
  rw [Node.ofStmt_eraseGuards, Node.outerLiterals_eraseGuards hflat]
  simp [erasePart, eraseGuards]

theorem ofAlternative_eraseGuards (a : Alternative) :
    ofAlternative a.eraseGuards = (ofAlternative a).map erasePart := by
  cases a <;> rfl

/-- The parts of a conditional stay apart, because its initializer holds no statement list. -/
theorem ofConditional_eraseGuards {c : Conditional}
    (hinit : (Node.cond c).hasSimpleInit = true) :
    ofConditional c.eraseGuards = (ofConditional c).map erasePart := by
  unfold ofConditional
  rw [Conditional.isGuard_eraseGuards]
  by_cases hguard : c.isGuard = true
  · rw [if_pos hguard, if_pos hguard]
    rfl
  rw [if_neg hguard, if_neg hguard, List.map_append, List.map_cons]
  obtain ⟨pos, init, cond, body, alternative⟩ := c
  have hliterals : (init.map Stmt.eraseGuards).toList.flatMap ofLiterals =
      (init.toList.flatMap ofLiterals).map erasePart := by
    match init with
    | none => rfl
    | some (.simple pos kind exprs) =>
      simpa using ofLiterals_eraseGuards (s := .simple pos kind exprs) rfl
  rw [← eraseStmt?_eq_map] at hliterals
  exact congrArg₂ (· ++ ·) hliterals
    (congrArg (_ :: ·) (ofAlternative_eraseGuards alternative))

/-- The step for depth: the parts of a statement are the erased parts. -/
theorem parts_stmt_eraseGuards {s : Stmt}
    (hinit : ∀ n ∈ (Node.ofStmt s).nodes, n.hasSimpleInit = true) :
    (stmt s.eraseGuards).parts = (stmt s).parts.map erasePart := by
  match s with
  | .cond c => exact ofConditional_eraseGuards (hinit _ (Node.cond c).self_mem_nodes)
  | .loop .. => rfl
  | .switch .. => rfl
  | .select .. => rfl
  | .case _ _ body =>
    rw [Stmt.eraseGuards, eraseStmts_eq_map]
    exact ofStmts_map_eraseElement 1 body
  | .comm _ _ body =>
    rw [Stmt.eraseGuards, eraseStmts_eq_map]
    exact ofStmts_map_eraseElement 1 body
  | .block (.mk _ stmts) =>
    rw [Stmt.eraseGuards, Block.eraseGuards, eraseStmts_eq_map]
    exact ofStmts_map_eraseElement 0 stmts
  | .labeled _ _ inner =>
    rw [Stmt.eraseGuards, eraseLabeled?_eq_map]
    cases inner <;> rfl
  | .ret .. => exact ofLiterals_eraseGuards rfl
  | .simple .. => exact ofLiterals_eraseGuards rfl

/-- The parts of an erased spot are its parts, erased. -/
theorem parts_eraseGuards {p : Spot} (hinit : ∀ n ∈ p.nodes, n.hasSimpleInit = true) :
    p.eraseGuards.parts = p.parts.map erasePart := by
  match p with
  | .block (.mk _ stmts) =>
    rw [eraseGuards, Block.eraseGuards, eraseStmts_eq_map]
    exact ofStmts_map_eraseElement 0 stmts
  | .elseIf c => exact ofConditional_eraseGuards (hinit _ (Node.cond c).self_mem_nodes)
  | .stmt s =>
    rw [eraseGuards]
    by_cases hguard : s.isGuard = true
    · have hnone : (stmt s).parts = [] := by
        cases s with
        | cond c => exact if_pos hguard
        | _ => cases hguard
      have hempty : (stmt (.simple s.pos .empty [])).parts = [] := by
        simp [parts, ofLiterals, Stmt.outerLiterals, Node.ofStmt,
          Node.outerLiterals_eq_flatMap, Node.children]
      rw [Stmt.eraseElement_of_isGuard hguard, hnone, hempty, List.map_nil]
    · rw [Stmt.eraseElement_of_not_isGuard hguard]
      exact parts_stmt_eraseGuards hinit

/-- Erasing keeps the depth of a spot and the first place that reaches it. -/
theorem deepest_eraseGuards {p : Spot} (hinit : ∀ n ∈ p.nodes, n.hasSimpleInit = true)
    (depth : ℕ) : p.eraseGuards.deepest depth = p.deepest depth := by
  induction p using parts_induction generalizing depth with
  | step p ih =>
    rw [deepest_eq, deepest_eq depth p, pos_eraseGuards, parts_eraseGuards hinit, foldParts,
      foldParts, List.foldl_map]
    apply List.foldl_ext
    intro best part hpart
    have hpart' : ∀ n ∈ part.2.nodes, n.hasSimpleInit = true :=
      fun n hn ↦ hinit n (nodes_subset_of_mem_parts hpart hn)
    rw [erasePart, ih part hpart hpart']

end Spot

/-- Error guards are exempt from both metrics wherever they stand. Erasing them keeps the depth with
its position and the complexity, and the conditionals that remain keep their verdicts. -/
theorem eraseGuards_exempt (b : Block) (hinit : b.SimpleInits) :
    b.eraseGuards.maxDepth = b.maxDepth ∧ b.eraseGuards.complexity = b.complexity ∧
      b.eraseGuards.conditionals = b.remaining.map Conditional.eraseGuards ∧
      b.eraseGuards.conditionals.map Conditional.isGuard = b.remaining.map Conditional.isGuard := by
  have hdepth : (Spot.block b).eraseGuards.deepest 0 = (Spot.block b).deepest 0 :=
    Spot.deepest_eraseGuards (p := .block b) hinit 0
  have hconditionals := b.conditionals_eraseGuards
  refine ⟨hdepth, b.complexity_eraseGuards, hconditionals, ?_⟩
  rw [hconditionals, List.map_map]
  exact List.map_congr_left fun c _ ↦ c.isGuard_eraseGuards

/-- The conditional `if err != nil { return err }` on the given line. -/
def guardAt (line : ℕ) : Conditional :=
  .mk ⟨line, 1, 0⟩ none (.binary "!=" (.ident "err") (.ident "nil"))
    (.mk ⟨line, 15, 0⟩ [.ret ⟨line, 17, 0⟩ [.ident "err"]]) .absent

/-- A body with guards in its own list, under a label, in a function literal of an initializer and
after `else`, where the last one stays. -/
def guardedBody : Block :=
  .mk ⟨1, 1, 0⟩
    [.cond (guardAt 2),
     .labeled ⟨3, 1, 0⟩ "retry" (some (.cond (guardAt 4))),
     .cond (.mk ⟨5, 1, 0⟩
       (some (.simple ⟨5, 4, 0⟩ .assign [.funcLit (.mk ⟨5, 10, 0⟩ [.cond (guardAt 6)])]))
       (.ident "ok") (.mk ⟨7, 1, 0⟩ []) (.elseIf (guardAt 8)))]

/-- In a body of five conditionals three are guards or stand in one; depth and complexity come from the
other two. -/
theorem eraseGuards_exempt_guardedBody :
    guardedBody.SimpleInits ∧ guardedBody.conditionals.length = 5 ∧
      guardedBody.remaining.length = 2 ∧
      guardedBody.maxDepth = ⟨⟨5, 10, 0⟩, 1⟩ ∧ guardedBody.complexity = 2 ∧
      guardedBody.eraseGuards.maxDepth = guardedBody.maxDepth ∧
      guardedBody.eraseGuards.complexity = guardedBody.complexity := by
  have hinit : guardedBody.SimpleInits := by decide +kernel
  obtain ⟨hdepth, hcomplexity, -⟩ := eraseGuards_exempt guardedBody hinit
  exact ⟨hinit, by decide +kernel, by decide +kernel, by decide +kernel, by decide +kernel, hdepth,
    hcomplexity⟩

end GoComplexity
