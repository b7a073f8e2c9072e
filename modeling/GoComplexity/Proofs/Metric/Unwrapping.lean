import GoComplexity.Proofs.Metric.Counts
import GoComplexity.Proofs.Metric.Levels
import GoComplexity.Proofs.Syntax.Unwrapping

/-!
# Bare blocks and labels are transparent

No metric tells a bare block that is not empty from its statements in a row, or a labeled statement from
the statement alone. Each metric is put together from the parts of a node by their kinds, so it is enough
that the siblings of one group keep what is read from them.
-/

namespace GoComplexity

open Syntax

namespace Syntax.Node

variable {nodes nodes' : List Node}

/-- The children of a node with one group of siblings singled out. -/
theorem children_of_groups {n : Node} {kind : PartKind} {before after : List (PartKind × List Node)}
    (h : n.groups = before ++ (kind, nodes) :: after) :
    n.children = before.flatMap Prod.snd ++ nodes ++ after.flatMap Prod.snd := by
  rw [← flatMap_groups, h, List.flatMap_append, List.flatMap_cons, List.append_assoc]

/-! ## Complexity -/

/-- Bare blocks and labels count no decisions. -/
theorem SiblingsUnwrap.sum_decisions (h : SiblingsUnwrap nodes nodes') :
    (nodes'.map decisions).sum = (nodes.map decisions).sum := by
  induction h with
  | @block b h =>
    rw [List.map_singleton, List.sum_singleton, decisions_eq]
    simp [isDecision, isGuard, children]
  | label pos label s =>
    rw [List.map_singleton, List.map_singleton, List.sum_singleton, List.sum_singleton,
      decisions_eq (.stmt _)]
    simp [isDecision, isGuard, children]
  | among before after _ ih => simp only [List.map_append, List.sum_append, ih]
  | inside hn before after hgroups hgroups' _ ih =>
    rw [List.map_singleton, List.map_singleton, List.sum_singleton, List.sum_singleton, decisions_eq,
      decisions_eq _, hn.isDecision, hn.isGuard, children_of_groups hgroups,
      children_of_groups hgroups']
    simp only [List.map_append, List.sum_append, ih]

/-! ## Nesting depth -/

/-- Whether the walk finds as many levels below one list of nodes as below another. -/
structure SameLevels (nodes nodes' : List Node) : Prop where
  levels : ∀ k, (∀ m ∈ nodes', m.levels < k) ↔ ∀ m ∈ nodes, m.levels < k
  literalLevels : ∀ k, (∀ m ∈ nodes', m.literalLevels < k) ↔ ∀ m ∈ nodes, m.literalLevels < k

namespace SameLevels

/-- Of a group that the walk goes through, only the levels of its members matter. -/
theorem walked_iff (h : SameLevels nodes nodes') (k : ℕ) (kind : PartKind) :
    kind.Walked k nodes' ↔ kind.Walked k nodes := by
  have hle : (∀ m ∈ nodes', m.levels ≤ k) ↔ ∀ m ∈ nodes, m.levels ≤ k := by
    simpa only [Nat.lt_succ_iff] using h.levels (k + 1)
  have hliterals : (∀ m ∈ nodes', m.literalLevels ≤ k) ↔ ∀ m ∈ nodes, m.literalLevels ≤ k := by
    simpa only [Nat.lt_succ_iff] using h.literalLevels (k + 1)
  cases kind with
  | thenBlock | elseBlock | body | literalBody => exact and_congr_right fun _ ↦ h.levels k
  | clauseBody => exact h.levels k
  | elseIf | bareBlock | label | operand => exact hle
  | init => exact hliterals
  | test | header | switchInit | tag | caseList | operation => exact Iff.rfl

/-- Of a group that is scanned for function literals, only the levels of the literals matter. -/
theorem scanned_iff (h : SameLevels nodes nodes') (k : ℕ) (kind : PartKind) :
    kind.Scanned k nodes' ↔ kind.Scanned k nodes := by
  by_cases hkind : kind = .literalBody
  · subst hkind
    exact and_congr_right fun _ ↦ h.levels k
  · rw [PartKind.scanned_of_ne hkind, PartKind.scanned_of_ne hkind]
    simpa only [Nat.lt_succ_iff] using h.literalLevels (k + 1)

/-- Two nodes have as many levels below them if they are error guards alike and differ in one group. -/
theorem of_groups (h : SameLevels nodes nodes') {n n' : Node} (hguard : n'.isGuard = n.isGuard)
    {kind : PartKind} {before after : List (PartKind × List Node)}
    (hgroups : n.groups = before ++ (kind, nodes) :: after)
    (hgroups' : n'.groups = before ++ (kind, nodes') :: after) : SameLevels [n] [n'] := by
  have hlevels : n'.levels = n.levels := by
    apply eq_of_forall_ge_iff
    intro k
    rw [levels_le_iff, levels_le_iff, hguard, hgroups, hgroups']
    simp only [List.forall_mem_append, List.forall_mem_cons, h.walked_iff]
  have hliterals : n'.literalLevels = n.literalLevels := by
    apply eq_of_forall_ge_iff
    intro k
    rw [literalLevels_le_iff, literalLevels_le_iff, hgroups, hgroups']
    simp only [List.forall_mem_append, List.forall_mem_cons, h.scanned_iff]
  constructor
  · intro k
    rw [List.forall_mem_singleton, List.forall_mem_singleton, hlevels]
  · intro k
    rw [List.forall_mem_singleton, List.forall_mem_singleton, hliterals]

end SameLevels

/-- A node bounded like a list that is not empty is strictly bounded like it, too. -/
theorem forall_lt_iff_of_le_iff {f : Node → ℕ} {n : Node} (hne : nodes ≠ [])
    (h : ∀ k, f n ≤ k ↔ ∀ m ∈ nodes, f m ≤ k) (k : ℕ) :
    (∀ m ∈ nodes, f m < k) ↔ ∀ m ∈ [n], f m < k := by
  rw [List.forall_mem_singleton]
  cases k with
  | zero =>
    obtain ⟨m, hm⟩ := List.exists_mem_of_ne_nil nodes hne
    exact iff_of_false (fun hall ↦ Nat.not_lt_zero _ (hall m hm)) (Nat.not_lt_zero _)
  | succ k => simpa only [Nat.lt_succ_iff] using (h k).symm

/-- A node with one group of parts, not an empty one, on its own level finds what the parts find. -/
theorem sameLevels_of_transparent {n : Node} {kind : PartKind} (hguard : n.isGuard = false)
    (hgroups : n.groups = [(kind, nodes)]) (hkind : kind = .bareBlock ∨ kind = .label)
    (hne : nodes ≠ []) : SameLevels [n] nodes := by
  constructor
  · apply forall_lt_iff_of_le_iff hne
    intro k
    rw [levels_le_iff, hguard, hgroups]
    rcases hkind with rfl | rfl <;> simp [PartKind.Walked]
  · apply forall_lt_iff_of_le_iff hne
    intro k
    rw [literalLevels_le_iff, hgroups]
    rcases hkind with rfl | rfl <;> simp [PartKind.Scanned]

/-- Bare blocks and labels are on the level of what they hold. -/
theorem SiblingsUnwrap.sameLevels (h : SiblingsUnwrap nodes nodes') : SameLevels nodes nodes' := by
  induction h with
  | block h => exact sameLevels_of_transparent rfl rfl (Or.inl rfl) (by simpa [ofBlock] using h)
  | label pos label s => exact sameLevels_of_transparent rfl rfl (Or.inr rfl) (List.cons_ne_nil _ _)
  | among before after _ ih =>
    constructor
    · intro k
      simp only [List.forall_mem_append, ih.levels]
    · intro k
      simp only [List.forall_mem_append, ih.literalLevels]
  | inside hn before after hgroups hgroups' _ ih => exact ih.of_groups hn.isGuard hgroups hgroups'

/-! ## Callees -/

/-- The callees at and below some nodes, in pre-order. -/
def callees (nodes : List Node) : List Expr := (nodes.flatMap Node.nodes).filterMap callee?

theorem callees_append (nodes nodes' : List Node) :
    callees (nodes ++ nodes') = callees nodes ++ callees nodes' := by
  simp only [callees, List.flatMap_append, List.filterMap_append]

/-- The callees below a node start with its own. -/
theorem callees_singleton (n : Node) : callees [n] = n.callee?.toList ++ callees n.children := by
  rw [callees, List.flatMap_singleton, nodes_eq, List.filterMap_cons]
  cases n.callee? <;> rfl

theorem forall₂_toList {α β : Type} {r : α → β → Prop} {a : Option α} {b : Option β}
    (h : Option.Rel r a b) : List.Forall₂ r a.toList b.toList := by
  cases h with
  | some h => exact .cons h .nil
  | none => exact .nil

/-- Unwrapping leaves every callee as it is or unwraps it, too. -/
theorem SiblingsUnwrap.callees (h : SiblingsUnwrap nodes nodes') :
    List.Forall₂ Expr.MayUnwrap (Node.callees nodes) (Node.callees nodes') := by
  have hsame (l : List Expr) : List.Forall₂ Expr.MayUnwrap l l :=
    List.forall₂_same.mpr fun e _ ↦ Or.inl rfl
  induction h with
  | @block b h =>
    rw [callees_singleton]
    exact hsame _
  | label pos label s =>
    rw [callees_singleton]
    exact hsame _
  | among before after _ ih =>
    simp only [callees_append]
    exact List.rel_append (List.rel_append (hsame _) ih) (hsame _)
  | @inside n n' hn kind nodes nodes' before after hgroups hgroups' _ ih =>
    rw [callees_singleton, callees_singleton, children_of_groups hgroups, children_of_groups hgroups']
    simp only [callees_append]
    exact List.rel_append (forall₂_toList hn.callee)
      (List.rel_append (List.rel_append (hsame _) ih) (hsame _))

end Syntax.Node

/-- What a file sees tells nothing about function literals in a callee. -/
theorem FileView.resolve_of_unwraps (v : FileView) (bindings : List Binding) {e e' : Expr}
    (h : e.Unwraps e') : v.resolve bindings e' = v.resolve bindings e := by
  cases h with
  | operand name h => cases h <;> rfl
  | _ => rfl

namespace Syntax.Block

variable {b b' : Block}

/-- Rewriting a body is rewriting among the siblings of its statements. -/
theorem Unwraps.siblings (h : b.Unwraps b') :
    Node.SiblingsUnwrap (Node.ofBlock b) (Node.ofBlock b') :=
  Syntax.Unwraps.siblings h

theorem Unwraps.depth_eq (h : b.Unwraps b') : b'.maxDepth.depth = b.maxDepth.depth := by
  apply eq_of_forall_ge_iff
  intro k
  calc b'.maxDepth.depth ≤ k
    _ ↔ ∀ m ∈ Node.ofBlock b', m.levels ≤ k := height_block_le_iff
    _ ↔ ∀ m ∈ Node.ofBlock b, m.levels ≤ k := by
      simpa only [Nat.lt_succ_iff] using h.siblings.sameLevels.levels (k + 1)
    _ ↔ b.maxDepth.depth ≤ k := height_block_le_iff.symm

theorem Unwraps.complexity_eq (h : b.Unwraps b') : b'.complexity = b.complexity := by
  rw [complexity_eq_decisions, complexity_eq_decisions, h.siblings.sum_decisions]

theorem callees_eq (b : Block) : b.callees = Node.callees (Node.ofBlock b) := by
  rw [callees, nodes_eq]
  rfl

/-- The callees stay one by one, but a function literal in a callee may hold the rewritten list. -/
theorem Unwraps.callees (h : b.Unwraps b') :
    List.Forall₂ Expr.MayUnwrap b.callees b'.callees := by
  rw [callees_eq, callees_eq]
  exact h.siblings.callees

/-- The answers stay if they stay for each callee that is unwrapped. -/
theorem Unwraps.map_callees {S : Type} {resolve : Expr → Callee S} (h : b.Unwraps b')
    (hresolve : List.Forall₂ (fun callee callee' ↦ callee.Unwraps callee' →
      resolve callee' = resolve callee) b.callees b'.callees) :
    b'.callees.map resolve = b.callees.map resolve := by
  have hanswers : List.Forall₂ (fun callee callee' ↦ resolve callee' = resolve callee)
      b.callees b'.callees := by
    apply List.Forall₂.mp _ hresolve h.callees
    rintro callee callee' hsteady (rfl | hunwraps)
    · rfl
    · exact hsteady hunwraps
  rw [← List.forall₂_eq_eq_eq, List.forall₂_map_left_iff, List.forall₂_map_right_iff]
  exact hanswers.flip

/-- Fan-out depends on the answers about the callees, in order, and on nothing else. -/
theorem fanOut_eq_of_map_callees {S : Type} [BEq S] {resolve : Expr → Callee S}
    (h : b'.callees.map resolve = b.callees.map resolve) : b'.fanOut resolve = b.fanOut resolve := by
  have hcounted (b : Block) : b.callees.filterMap (fun callee ↦ (resolve callee).counted?) =
      (b.callees.map resolve).filterMap Callee.counted? := by
    rw [List.filterMap_map]
    rfl
  rw [fanOut, fanOut, hcounted, hcounted, h]

end Syntax.Block

/-- Unwrapping a bare block or a label changes neither depth nor complexity. The callees stay one by one,
or they are unwrapped where the list lies in a function literal that they hold. Fan-out does not change
either, for every resolver that answers alike about a callee and about what it is unwrapped to, as the
resolver of a file always does. -/
theorem metrics_of_unwraps {b b' : Block} (h : b.Unwraps b') :
    b'.maxDepth.depth = b.maxDepth.depth ∧ b'.complexity = b.complexity ∧
      List.Forall₂ Expr.MayUnwrap b.callees b'.callees ∧
      (∀ {S : Type} [BEq S] (resolve : Expr → Callee S),
        List.Forall₂ (fun callee callee' ↦ callee.Unwraps callee' →
          resolve callee' = resolve callee) b.callees b'.callees →
        b'.fanOut resolve = b.fanOut resolve) ∧
      ∀ (v : FileView) (bindings : List Binding),
        b'.fanOut (v.resolve bindings) = b.fanOut (v.resolve bindings) := by
  refine ⟨h.depth_eq, h.complexity_eq, h.callees, ?_, ?_⟩
  · intro S _ resolve hresolve
    exact Block.fanOut_eq_of_map_callees (h.map_callees hresolve)
  · intro v bindings
    apply Block.fanOut_eq_of_map_callees
    apply h.map_callees
    apply h.callees.imp
    intro callee callee' _ hunwraps
    exact v.resolve_of_unwraps bindings hunwraps

/-- A test for an error with the given first block. -/
def errorTest (stmts : List Stmt) : Conditional :=
  .mk ⟨3, 3, 23⟩ none (.binary "!=" (.ident "err") (.ident "nil")) (.mk ⟨3, 17, 37⟩ stmts) .absent

/-- A conditional in a function literal that a callee holds. -/
def literalInCallee (c : Conditional) : Block :=
  .mk ⟨1, 10, 9⟩ [.simple ⟨2, 2, 12⟩ .expression
    [.call (.selector (.call (.funcLit (.mk ⟨2, 9, 19⟩ [.cond c])) []) "wait") []]]

def reportError : Stmt := .simple ⟨4, 6, 44⟩ .expression [.call (.ident "report") [.ident "err"]]

def returnError : Stmt := .ret ⟨5, 4, 62⟩ [.ident "err"]

/-- A bare block in front of a return, in the function literal of a callee: without its braces and with
them the conditional is no guard. -/
theorem metrics_of_unwraps_literalInCallee :
    let wrapped :=
      literalInCallee (errorTest [.block (.mk ⟨4, 4, 42⟩ [reportError]), returnError])
    let bare := literalInCallee (errorTest [reportError, returnError])
    wrapped.Unwraps bare ∧ bare.maxDepth.depth = wrapped.maxDepth.depth ∧
      bare.complexity = wrapped.complexity ∧
      bare.fanOut resolveByName = wrapped.fanOut resolveByName := by
  intro wrapped bare
  have hlist : UnwrapsElement [.block (.mk ⟨4, 4, 42⟩ [reportError]), returnError]
      [reportError, returnError] := .block [] [returnError] _ (List.cons_ne_nil _ _)
  have htest : Unwraps (.conditional (errorTest _)) (.conditional (errorTest _)) :=
    .thenBlock hlist rfl
  have hliteral : Unwraps (.block (.mk ⟨2, 9, 19⟩ _)) (.block (.mk ⟨2, 9, 19⟩ _)) :=
    .braces _ (.element [] [] (.cond htest))
  have hunwraps : wrapped.Unwraps bare :=
    .braces _ (.element [] [] (.simple _ _ (.listed [] []
      (.callee _ (.operand _ (.callee _ (.literal hliteral)))))))
  have hsteady (callee callee' : Expr) (h : callee.Unwraps callee') :
      resolveByName callee' = resolveByName callee := by
    cases h with
    | operand name h => cases h <;> rfl
    | _ => rfl
  obtain ⟨hdepth, hcomplexity, hcallees, hfanOut, -⟩ := metrics_of_unwraps hunwraps
  have hanswers := hcallees.imp fun callee callee' _ ↦ hsteady callee callee'
  exact ⟨hunwraps, hdepth, hcomplexity, hfanOut resolveByName hanswers⟩

/-- Knows a method by its name while a bare block comes first in the function literal that its operand
calls, and nothing else. -/
def resolveThroughBlock : Expr → Callee String
  | .selector (.call (.funcLit (.mk _ (.block _ :: _))) _) name => .object name none
  | _ => .unresolved

/-- A call of a method of what a function literal returns. -/
def methodOfLiteral (stmts : List Stmt) : Block :=
  .mk ⟨1, 10, 9⟩ [.simple ⟨2, 2, 12⟩ .expression
    [.call (.selector (.call (.funcLit (.mk ⟨2, 8, 18⟩ stmts)) []) "m") []]]

def callStep : Stmt := .simple ⟨2, 12, 22⟩ .expression [.call (.ident "step") []]

/-- A resolver that looks into the function literals of a callee can tell a bare block from its
statements. -/
theorem fanOut_ne_of_unwraps :
    ∃ b b' : Block, b.Unwraps b' ∧ b.fanOut resolveThroughBlock = 1 ∧
      b'.fanOut resolveThroughBlock = 0 := by
  have hlist : UnwrapsElement [.block (.mk ⟨2, 10, 20⟩ [callStep])] [callStep] :=
    .block [] [] _ (List.cons_ne_nil _ _)
  have hliteral : Unwraps (.block (.mk ⟨2, 8, 18⟩ _)) (.block (.mk ⟨2, 8, 18⟩ _)) :=
    .braces _ (.here hlist)
  have hunwraps : (methodOfLiteral [.block (.mk ⟨2, 10, 20⟩ [callStep])]).Unwraps
      (methodOfLiteral [callStep]) :=
    .braces _ (.element [] [] (.simple _ _ (.listed [] []
      (.callee _ (.operand _ (.callee _ (.literal hliteral)))))))
  exact ⟨_, _, hunwraps, by decide +kernel, by decide +kernel⟩

end GoComplexity
