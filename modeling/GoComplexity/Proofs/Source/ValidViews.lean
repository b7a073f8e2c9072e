import GoComplexity.Proofs.Source.Conformance
import GoComplexity.Proofs.Source.Views
import Mathlib.Data.List.Flatten

/-!
# Views of well-formed trees

A view is valid if its tree is well-formed, lies in the tokens at hand and has a kind that goes with the
view. The parts of a valid view are valid.
-/

namespace GoComplexity.Source

open Syntax
open scoped List

namespace Tree

theorem isNamed_of_kind? {t : Tree} {k : Kind} (h : t.kind? = some k) : t.isNamed = true := by
  cases t with
  | leaf => simp [kind?] at h
  | node => rfl

theorem hasKind_iff {t : Tree} {k : Kind} : t.hasKind k = true ↔ t.kind? = some k := beq_iff_eq

/-! ## Choosing children -/

theorem child?_toList_sublist (t : Tree) (r : Role) : (t.child? r).toList <+ t.children := by
  cases hchild : t.child? r with
  | none => exact List.nil_sublist _
  | some c => exact List.singleton_sublist.mpr (List.mem_of_find?_eq_some hchild)

theorem role_of_child? {t c : Tree} {r : Role} (h : c ∈ (t.child? r).toList) : c.role = some r := by
  have hfound : t.children.find? (fun c ↦ c.role == some r) = some c := Option.mem_toList.mp h
  exact beq_iff_eq.mp (List.find?_some hfound :)

theorem mem_children_of_child? {t c : Tree} {r : Role} (h : t.child? r = some c) : c ∈ t.children :=
  List.mem_of_find?_eq_some h

/-- What a child with a role looks like, if its parent says so. -/
theorem WellFormed.fits_of_child? {t c : Tree} (h : t.WellFormed) {k : Kind}
    (hkind : t.kind? = some k) {r : Role} {molds : List Mold}
    (hmolds : (r, molds) ∈ Grammar.restrictions k) (hc : t.child? r = some c) :
    ∃ m ∈ molds, m.Fits c :=
  (h.content hkind).fits r molds hmolds c (mem_children_of_child? hc)
    (role_of_child? (Option.mem_toList.mpr hc))

theorem named_sublist (t : Tree) : t.named <+ t.children := List.filter_sublist

theorem statements_sublist (t : Tree) : t.statements <+ t.children :=
  List.filter_sublist.trans t.named_sublist

theorem exists_kind_of_mem_ofKinds {t c : Tree} {kinds : List Kind} (h : c ∈ t.ofKinds kinds) :
    ∃ k ∈ kinds, c.kind? = some k := by
  obtain ⟨-, hkinds⟩ := List.mem_filter.mp h
  obtain ⟨k, hk, hkind⟩ := List.any_eq_true.mp hkinds
  exact ⟨k, hk, hasKind_iff.mp hkind⟩

/-- The tokens of the children are among those of the tree, in order. -/
theorem flatMap_children_sublist (t : Tree) : t.children.flatMap tokens <+ t.tokens := by
  cases t with
  | leaf => exact List.nil_sublist _
  | node role kind children => rw [tokens_node]; rfl

/-! ## Trees among tokens -/

/-- A well-formed tree whose tokens are among the given ones. -/
structure Within (toks : List Token) (t : Tree) : Prop where
  wellFormed : t.WellFormed
  subset : t.tokens ⊆ toks

/-- A tree within some tokens has its children within them. -/
theorem Within.of_mem_children {toks : List Token} {t c : Tree} (h : t.Within toks)
    (hc : c ∈ t.children) : c.Within toks where
  wellFormed := h.wellFormed.of_mem_children hc
  subset _ htoken :=
    h.subset (t.flatMap_children_sublist.subset (List.mem_flatMap.mpr ⟨c, hc, htoken⟩))

end Tree

namespace View

/-! ## Valid views -/

variable {toks : List Token}

def Valid (toks : List Token) : View → Prop
  | .expr t | .applied t | .stmt t => t.Within toks
  | .hole => True
  | .cond t => t.Within toks ∧ t.kind? = some .ifStmt
  | .case t => t.Within toks ∧ ∃ k ∈ caseKinds, t.kind? = some k
  | .comm t => t.Within toks ∧ ∃ k ∈ commKinds, t.kind? = some k

theorem valid_of_mem_operands {t : Tree} (h : t.Within toks) {v : View} (hv : v ∈ operands t) :
    v.Valid toks := by
  obtain ⟨c, hc, rfl⟩ := List.mem_map.mp hv
  exact h.of_mem_children (t.named_sublist.subset hc)

theorem valid_of_mem_body {t : Tree} (h : t.Within toks) {v : View} (hv : v ∈ body t) : v.Valid toks := by
  obtain ⟨c, hc, rfl⟩ := List.mem_map.mp hv
  exact h.of_mem_children (t.statements_sublist.subset hc)

theorem within_of_child? {t c : Tree} (h : t.Within toks) {r : Role}
    (hc : c ∈ (t.child? r).toList) : c.Within toks :=
  h.of_mem_children ((t.child?_toList_sublist r).subset hc)

theorem valid_ofRole {t : Tree} (h : t.Within toks) (r : Role) : (ofRole t r).Valid toks := by
  rw [ofRole]
  cases hc : t.child? r with
  | none => trivial
  | some c => exact within_of_child? h (r := r) (by simp [hc])

/-- The parts of an expression are valid views. -/
theorem valid_of_mem_exprParts {t : Tree} (h : t.Within toks) {v : View} (hv : v ∈ exprParts t) :
    v.Valid toks := by
  unfold exprParts at hv
  split at hv
  · simp at hv
  · rcases List.mem_append.mp hv with hv | hv
    · obtain ⟨c, hc, rfl⟩ := List.mem_map.mp hv
      exact within_of_child? h hc
    · obtain ⟨c, hc, hv⟩ := List.mem_flatMap.mp hv
      exact valid_of_mem_operands (within_of_child? h hc) hv
  · split at hv
    · rename_i callee arguments hcallee harguments
      have hwell := within_of_child? h (Option.mem_toList.mpr hcallee)
      rcases List.mem_cons.mp hv with rfl | hv
      · split <;> exact hwell
      · exact valid_of_mem_operands (within_of_child? h (Option.mem_toList.mpr harguments)) hv
    · simp at hv
  · rcases List.mem_cons.mp hv with rfl | hv
    · exact valid_ofRole h .type
    · obtain ⟨c, hc, rfl⟩ := List.mem_map.mp hv
      exact within_of_child? h hc
  · rw [List.mem_singleton.mp hv]
    exact valid_ofRole h .operand
  · obtain ⟨c, hc, hv⟩ := List.mem_flatMap.mp hv
    exact valid_of_mem_body (within_of_child? h hc) hv
  · rcases List.mem_cons.mp hv with rfl | hv
    · exact valid_ofRole h .left
    · rw [List.mem_singleton.mp hv]
      exact valid_ofRole h .right
  · exact valid_of_mem_operands h hv

/-- The parts of a conditional are valid views. -/
theorem valid_of_mem_condParts {t : Tree} (h : t.Within toks) {v : View} (hv : v ∈ condParts t) :
    v.Valid toks := by
  simp only [condParts, List.mem_append, List.mem_cons] at hv
  rcases hv with hv | rfl | hv | hv
  · obtain ⟨c, hc, rfl⟩ := List.mem_map.mp hv
    exact within_of_child? h hc
  · exact valid_ofRole h .condition
  · obtain ⟨c, hc, hv⟩ := List.mem_flatMap.mp hv
    exact valid_of_mem_body (within_of_child? h hc) hv
  · obtain ⟨c, hc, hv⟩ := List.mem_flatMap.mp hv
    rw [alternative] at hv
    split_ifs at hv with hif
    · rw [List.mem_singleton.mp hv]
      exact ⟨within_of_child? h hc, Tree.hasKind_iff.mp hif⟩
    · exact valid_of_mem_body (within_of_child? h hc) hv

/-- The parts of a switch are valid views. -/
theorem valid_of_mem_switchParts {t : Tree} (h : t.Within toks) {v : View}
    (hv : v ∈ switchParts t) : v.Valid toks := by
  simp only [switchParts, List.mem_append, List.mem_map] at hv
  rcases hv with (⟨c, hc, rfl⟩ | ⟨c, hc, rfl⟩) | ⟨c, hc, rfl⟩
  · exact within_of_child? h hc
  · exact within_of_child? h hc
  · exact ⟨h.of_mem_children (List.filter_sublist.subset hc), Tree.exists_kind_of_mem_ofKinds hc⟩

/-- The parts of a statement are valid views. -/
theorem valid_of_mem_stmtParts {t : Tree} (h : t.Within toks) {v : View} (hv : v ∈ stmtParts t) :
    v.Valid toks := by
  unfold stmtParts at hv
  split at hv
  · simp at hv
  · exact valid_of_mem_condParts h hv
  · rcases List.mem_append.mp hv with hv | hv
    · obtain ⟨c, hc, rfl⟩ := List.mem_map.mp hv
      exact h.of_mem_children (t.named_sublist.subset (List.filter_sublist.subset hc))
    · obtain ⟨c, hc, hv⟩ := List.mem_flatMap.mp hv
      exact valid_of_mem_body (within_of_child? h hc) hv
  · exact valid_of_mem_switchParts h hv
  · exact valid_of_mem_switchParts h hv
  · obtain ⟨c, hc, rfl⟩ := List.mem_map.mp hv
    exact ⟨h.of_mem_children (List.filter_sublist.subset hc), Tree.exists_kind_of_mem_ofKinds hc⟩
  · exact valid_of_mem_body h hv
  · exact valid_of_mem_body h (List.mem_of_mem_take hv)
  · obtain ⟨c, hc, hv⟩ := List.mem_flatMap.mp hv
    have hwell := h.of_mem_children (t.named_sublist.subset hc)
    rw [items] at hv
    split_ifs at hv
    · exact valid_of_mem_operands hwell hv
    · rw [List.mem_singleton.mp hv]
      exact hwell

theorem valid_of_mem_caseList {t : Tree} (h : t.Within toks) {v : View} (hv : v ∈ caseList t) :
    v.Valid toks := by
  unfold caseList at hv
  split at hv
  · obtain ⟨c, hc, hv⟩ := List.mem_flatMap.mp hv
    exact valid_of_mem_operands (within_of_child? h hc) hv
  · obtain ⟨c, hc, rfl⟩ := List.mem_map.mp hv
    exact h.of_mem_children (List.filter_sublist.subset hc)
  · simp at hv

/-- The parts of a valid view are valid. -/
theorem Valid.of_mem_parts {v w : View} (h : v.Valid toks) (hw : w ∈ v.parts) : w.Valid toks := by
  cases v with
  | expr t => exact valid_of_mem_exprParts h hw
  | applied t => rw [List.mem_singleton.mp hw]; exact h
  | hole => simp [parts] at hw
  | stmt t => exact valid_of_mem_stmtParts h hw
  | cond t => exact valid_of_mem_condParts h.1 hw
  | case t =>
    rcases List.mem_append.mp hw with hw | hw
    · exact valid_of_mem_caseList h.1 hw
    · exact valid_of_mem_body h.1 hw
  | comm t =>
    rcases List.mem_append.mp hw with hw | hw
    · obtain ⟨c, hc, rfl⟩ := List.mem_map.mp hw
      exact within_of_child? h.1 hc
    · exact valid_of_mem_body h.1 hw

/-- What holds of the nodes of all valid views holds of the nodes below them. -/
theorem Valid.forall_nodes {source : ByteArray} {P : Node → Prop}
    (hnode : ∀ v : View, v.Valid toks → P (v.node source)) {v : View} (h : v.Valid toks) :
    ∀ n ∈ (v.node source).nodes, P n := by
  induction v using parts_induction with
  | step v ih =>
    rw [nodes_eq]
    intro n hn
    rcases List.mem_cons.mp hn with rfl | hn
    · exact hnode v h
    · obtain ⟨w, hw, hn⟩ := List.mem_flatMap.mp hn
      exact ih w hw (h.of_mem_parts hw) n hn

/-- A property of the node of each valid view holds of all nodes of a block. -/
theorem forall_nodes_block {source : ByteArray} {P : Node → Prop}
    (hnode : ∀ v : View, v.Valid toks → P (v.node source)) {t : Tree} (h : t.Within toks) :
    ∀ n ∈ (Lower.block source t).nodes, P n := by
  rw [Block.nodes_eq, ofBlock_block, List.flatMap_map]
  intro n hn
  obtain ⟨v, hv, hn⟩ := List.mem_flatMap.mp hn
  exact (valid_of_mem_body h hv).forall_nodes hnode n hn

end View

end GoComplexity.Source
