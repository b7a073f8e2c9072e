import GoComplexity.Proofs.Metric.Places
import GoComplexity.Proofs.Source.Files
import GoComplexity.Proofs.Source.Nesting

/-!
# Positions in a source file

Every position in a file is that of a token of its source. The declarations, the braces of their bodies
and the statements and conditionals in pre-order start one later than the other, and all positions of a
function come before those of the next one.
-/

namespace GoComplexity

open Syntax
open scoped List

namespace Source

variable {toks : List Token}

/-! ## Starts of trees -/

theorem Tree.WellFormed.exists_start {t : Tree} (h : t.WellFormed) :
    ∃ token rest, t.tokens = token :: rest ∧ t.start = token.start := by
  obtain ⟨token, rest, hcons⟩ := List.exists_cons_of_ne_nil h.tokens_ne_nil
  exact ⟨token, rest, hcons, Tree.start_of_tokens_eq_cons hcons⟩

/-- A tree starts where one of the tokens starts. -/
theorem Tree.Within.start_mem {t : Tree} (h : t.Within toks) :
    t.start ∈ toks.map Token.start := by
  obtain ⟨token, rest, hcons, hstart⟩ := h.wellFormed.exists_start
  rw [hstart]
  exact List.mem_map_of_mem (h.subset (hcons ▸ List.mem_cons_self))

namespace View

variable (source : ByteArray)

/-! ## Statements in order -/

/-- Where the statement or conditional of a view starts. -/
def start? : View → Option Position
  | .expr _ | .applied _ | .hole => none
  | .stmt t | .cond t | .case t | .comm t => some t.start

theorem pos?_cond (t : Tree) : (Node.cond (Lower.conditional source t)).pos? = some t.start := by
  rw [Lower.conditional_eq]
  rfl

theorem pos_stmt (t : Tree) : (Lower.stmt source t).pos = t.start := by
  rw [Lower.stmt]
  split
  · rw [Lower.conditional_eq]
    rfl
  · obtain ⟨kind, heq⟩ := Lower.loop_eq source t
    rw [heq]
    rfl
  · obtain ⟨kind, heq⟩ := Lower.switch_eq source t
    rw [heq]
    rfl
  · obtain ⟨kind, heq⟩ := Lower.switch_eq source t
    rw [heq]
    rfl
  · rw [Lower.select_eq]
    rfl
  · rw [Lower.block]
    rfl
  all_goals rfl

theorem pos?_node (v : View) : (v.node source).pos? = v.start? := by
  cases v with
  | expr t => rfl
  | applied t => rfl
  | hole => rfl
  | stmt t => exact (Node.pos?_ofStmt _).trans (congrArg some (pos_stmt source t))
  | cond t => exact pos?_cond source t
  | case t =>
    rw [node, Lower.caseClause_eq]
    rfl
  | comm t =>
    rw [node, Lower.commClause_eq]
    rfl

/-- A statement starts at its first token, in front of the statements inside of it. -/
theorem start?_append_sublist {v : View} (h : v.Valid toks) :
    v.start?.toList ++ v.tokens.tail.map Token.start <+ v.due.map Token.start := by
  have hstart {t : Tree} (ht : t.WellFormed) :
      [t.start] ++ t.tokens.tail.map Token.start <+ t.tokens.map Token.start := by
    obtain ⟨token, rest, hcons, hstart⟩ := ht.exists_start
    rw [hcons, hstart]
    exact List.Sublist.refl _
  cases v with
  | expr t => exact List.Sublist.refl _
  | applied t => exact List.Sublist.refl _
  | hole => exact List.Sublist.refl _
  | stmt t => exact hstart h.wellFormed
  | cond t => exact hstart h.1.wellFormed
  | case t => exact hstart h.1.wellFormed
  | comm t => exact hstart h.1.wellFormed

/-- The nodes of a view, visited in pre-order, start at tokens in their order. -/
theorem filterMap_pos?_sublist {v : View} (h : v.Valid toks) :
    (v.node source).nodes.filterMap Node.pos? <+ v.due.map Token.start := by
  induction v using parts_induction with
  | step v ih =>
    -- What the view starts with is its first token, and its parts lie behind that one.
    have hparts : (v.parts.flatMap fun w ↦ (w.node source).nodes.filterMap Node.pos?) <+
        v.tokens.tail.map Token.start :=
      calc (v.parts.flatMap fun w ↦ (w.node source).nodes.filterMap Node.pos?)
          <+ v.parts.flatMap fun w ↦ w.due.map Token.start :=
            List.Sublist.flatMap_right _ fun w hw ↦ ih w hw (h.of_mem_parts hw)
        _ = (v.parts.flatMap due).map Token.start := List.map_flatMap.symm
        _ <+ v.tokens.tail.map Token.start := (flatMap_due_parts h).map Token.start
    have hnodes : (v.node source).nodes.filterMap Node.pos? = v.start?.toList ++
        v.parts.flatMap fun w ↦ (w.node source).nodes.filterMap Node.pos? := by
      rw [nodes_eq, List.filterMap_cons, pos?_node, List.filterMap_flatMap]
      cases v.start? <;> rfl
    rw [hnodes]
    exact (hparts.append_left _).trans (start?_append_sublist h)

/-! ## Braces -/

/-- A block opens at one of the tokens. -/
theorem lbrace_block_mem {t : Tree} (h : t.Within toks) :
    (Lower.block source t).lbrace ∈ toks.map Token.start := by
  rw [Lower.block]
  exact h.start_mem

theorem lbrace_roleBlock_mem {t : Tree} (h : t.Within toks) (r : Role) :
    (Lower.roleBlock source t r).lbrace ∈ toks.map Token.start := by
  rw [Lower.roleBlock]
  cases hc : t.child? r with
  | none => exact h.start_mem
  | some c => exact lbrace_block_mem source (within_of_child? h (Option.mem_toList.mpr hc))

theorem bracePosition_mem {t : Tree} (h : t.Within toks) :
    Lower.bracePosition t ∈ toks.map Token.start := by
  rw [Lower.bracePosition]
  cases hc : t.children.find? (Tree.isMark · "\x7b") with
  | none => exact h.start_mem
  | some c => exact (h.of_mem_children (List.mem_of_find?_eq_some hc)).start_mem

/-- The blocks of an expression open at tokens. -/
theorem lbrace_mem_of_expr {t : Tree} (h : t.Within toks) :
    ∀ b ∈ (Node.expr (Lower.expr source t)).blocks, b.lbrace ∈ toks.map Token.start := by
  intro b hb
  cases heq : Lower.expr source t with
  | funcLit body =>
    rw [heq] at hb
    rw [List.mem_singleton.mp hb, Lower.eq_roleBlock_of_expr_eq source t heq]
    exact lbrace_roleBlock_mem source h .body
  | _ =>
    rw [heq] at hb
    exact absurd hb List.not_mem_nil

/-- The blocks of a conditional open at tokens. -/
theorem lbrace_mem_of_cond {t : Tree} (h : t.Within toks) :
    ∀ b ∈ (Node.cond (Lower.conditional source t)).blocks, b.lbrace ∈ toks.map Token.start := by
  rw [Lower.conditional_eq]
  intro b hb
  rcases List.mem_cons.mp hb with rfl | hb
  · exact lbrace_roleBlock_mem source h .consequence
  · cases hc : t.child? .alternative with
    | none => simp [Conditional.alternative, hc] at hb
    | some c =>
      simp only [Conditional.alternative, hc, Option.map_some, Option.getD_some,
        Lower.alternativeOf] at hb
      split_ifs at hb
      · exact absurd hb List.not_mem_nil
      · rw [List.mem_singleton.mp hb]
        exact lbrace_block_mem source (within_of_child? h (Option.mem_toList.mpr hc))

/-- The blocks of a statement open at tokens. -/
theorem lbrace_mem_of_stmt {t : Tree} (h : t.Within toks) :
    ∀ b ∈ (Node.ofStmt (Lower.stmt source t)).blocks, b.lbrace ∈ toks.map Token.start := by
  have hswitch : ∀ b ∈ (Node.ofStmt (Lower.switch source t)).blocks,
      b.lbrace ∈ toks.map Token.start := by
    obtain ⟨kind, heq⟩ := Lower.switch_eq source t
    rw [heq]
    exact List.forall_mem_singleton.mpr (bracePosition_mem h)
  rw [Lower.stmt]
  split
  · exact lbrace_mem_of_cond source h
  · obtain ⟨kind, heq⟩ := Lower.loop_eq source t
    rw [heq]
    exact List.forall_mem_singleton.mpr (lbrace_roleBlock_mem source h .body)
  · exact hswitch
  · exact hswitch
  · rw [Lower.select_eq]
    exact List.forall_mem_singleton.mpr (bracePosition_mem h)
  · exact List.forall_mem_singleton.mpr (lbrace_block_mem source h)
  all_goals exact fun b hb ↦ absurd hb List.not_mem_nil

theorem lbrace_mem_of_node {v : View} (h : v.Valid toks) :
    ∀ b ∈ (v.node source).blocks, b.lbrace ∈ toks.map Token.start := by
  cases v with
  | expr t => exact lbrace_mem_of_expr source h
  | applied t => exact fun b hb ↦ absurd hb List.not_mem_nil
  | hole => exact fun b hb ↦ absurd hb List.not_mem_nil
  | stmt t => exact lbrace_mem_of_stmt source h
  | cond t => exact lbrace_mem_of_cond source h.1
  | case t =>
    rw [node, Lower.caseClause_eq]
    exact fun b hb ↦ absurd hb List.not_mem_nil
  | comm t =>
    rw [node, Lower.commClause_eq]
    exact fun b hb ↦ absurd hb List.not_mem_nil

theorem start?_mem {v : View} (h : v.Valid toks) : ∀ pos ∈ v.start?, pos ∈ toks.map Token.start := by
  have hstart {t : Tree} (ht : t.Within toks) :
      ∀ pos ∈ some t.start, pos ∈ toks.map Token.start := by
    rintro pos ⟨⟩
    exact ht.start_mem
  cases v with
  | expr t => rintro pos ⟨⟩
  | applied t => rintro pos ⟨⟩
  | hole => rintro pos ⟨⟩
  | stmt t => exact hstart h
  | cond t => exact hstart h.1
  | case t => exact hstart h.1
  | comm t => exact hstart h.1

/-- All places of a node are starts of tokens. -/
theorem places_node_subset {v : View} (h : v.Valid toks) :
    (v.node source).places ⊆ toks.map Token.start := by
  rw [Node.places, pos?_node]
  intro pos hpos
  rcases List.mem_append.mp hpos with hpos | hpos
  · exact start?_mem h pos (Option.mem_toList.mp hpos)
  · obtain ⟨b, hb, rfl⟩ := List.mem_map.mp hpos
    exact lbrace_mem_of_node source h b hb

/-- The positions in a lowered block are those of tokens. -/
theorem places_block_subset {t : Tree} (h : t.Within toks) :
    (Lower.block source t).places ⊆ toks.map Token.start := by
  rw [Block.places]
  refine List.cons_subset.mpr ⟨lbrace_block_mem source h, fun pos hpos ↦ ?_⟩
  obtain ⟨n, hn, hpos⟩ := List.mem_flatMap.mp hpos
  exact forall_nodes_block (P := fun n ↦ n.places ⊆ toks.map Token.start)
    (fun v hv ↦ places_node_subset source hv) h n hn hpos

/-- The brace of a block and then what stands in it. -/
theorem lbrace_cons_sublist {t : Tree} (h : t.WellFormed) (hkind : t.kind? = some .block) :
    (Lower.block source t).lbrace :: (Lower.block source t).nodes.filterMap Node.pos? <+
      t.tokens.map Token.start := by
  have hview := @filterMap_pos?_sublist t.tokens source (.stmt t) ⟨h, List.Subset.refl _⟩
  have hnode : (View.stmt t).node source = .stmt (.block (Lower.block source t)) := by
    rw [node, Lower.stmt, hkind]
    rfl
  have hnodes : ((View.stmt t).node source).nodes =
      .stmt (.block (Lower.block source t)) :: (Lower.block source t).nodes := by
    rw [hnode, Node.nodes_eq, Block.nodes_eq]
    rfl
  rw [hnodes] at hview
  exact hview

end View

/-! ## Bindings and imports -/

theorem Tree.Inside.within {n t : Tree} {through : Kind → Prop} (h : n.Inside through t)
    (ht : t.Within toks) : n.Within toks := by
  induction h with
  | self => exact ht
  | child _ _ hc _ ih => exact ih (ht.of_mem_children hc)

theorem exposedIn_of_mem_roleItems {t c : Tree} {k : Kind} (hkind : t.kind? = some k)
    (hk : Lower.isTypeLiteral k = false) {r : Role} (hc : c ∈ Lower.roleItems t r) :
    c.ExposedIn t := by
  rw [Lower.roleItems] at hc
  cases hchild : t.child? r with
  | none => simp [hchild] at hc
  | some d =>
    have hd : d ∈ t.children := Tree.mem_children_of_child? hchild
    simp only [hchild, Option.map_some, Option.getD_some, Lower.listItems] at hc
    split_ifs at hc with hlist
    · exact .child hkind hk hd (.child (Tree.hasKind_iff.mp hlist) rfl (List.mem_filter.mp hc).1 .self)
    · rw [List.mem_singleton.mp hc]
      exact .child hkind hk hd .self

variable {source : ByteArray}

theorem exists_of_mem_shortBindings {t : Tree} {b : Binding} (hb : b ∈ Lower.shortBindings source t) :
    ∃ name ∈ Lower.roleItems t .left, b.pos = name.start := by
  rw [Lower.shortBindings] at hb
  split at hb
  · obtain ⟨⟨name, value⟩, hzip, rfl⟩ := List.mem_map.mp hb
    exact ⟨name, (List.of_mem_zip hzip).1, rfl⟩
  · obtain ⟨name, hname, rfl⟩ := List.mem_map.mp hb
    exact ⟨name, hname, rfl⟩

theorem exists_of_mem_varBindings {t : Tree} {b : Binding} (hb : b ∈ Lower.varBindings source t) :
    ∃ name ∈ t.children, b.pos = name.start := by
  obtain ⟨⟨name, i⟩, hname, rfl⟩ := List.mem_map.mp hb
  exact ⟨name, (List.mem_filter.mp (List.fst_mem_of_mem_zipIdx hname)).1, rfl⟩

/-- All parameters are bound at the start of their list. -/
theorem pos_of_mem_paramBindings {t : Tree} {b : Binding} (hb : b ∈ Lower.paramBindings source t) :
    b.pos = t.start := by
  obtain ⟨g, -, hb⟩ := List.mem_flatMap.mp hb
  obtain ⟨name, -, rfl⟩ := List.mem_map.mp hb
  rfl

/-- A node binds names at itself or at what lies open in it. -/
theorem exists_exposedIn_of_mem_ownBindings {t : Tree} {b : Binding}
    (hb : b ∈ Lower.ownBindings source t) : ∃ n : Tree, n.ExposedIn t ∧ b.pos = n.start := by
  have hleft {k : Kind} (hkind : t.kind? = some k) (hk : Lower.isTypeLiteral k = false)
      (hb : b ∈ Lower.leftBindings source t) : ∃ n : Tree, n.ExposedIn t ∧ b.pos = n.start := by
    obtain ⟨name, hname, rfl⟩ := List.mem_map.mp hb
    exact ⟨name, exposedIn_of_mem_roleItems hkind hk hname, rfl⟩
  unfold Lower.ownBindings at hb
  split at hb
  · exact ⟨t, .self, pos_of_mem_paramBindings hb⟩
  · rename_i hkind
    obtain ⟨name, hname, hpos⟩ := exists_of_mem_varBindings hb
    exact ⟨name, .child hkind rfl hname .self, hpos⟩
  · rename_i hkind
    obtain ⟨name, hname, hpos⟩ := exists_of_mem_shortBindings hb
    exact ⟨name, exposedIn_of_mem_roleItems hkind rfl hname, hpos⟩
  · rename_i hkind
    split_ifs at hb
    · exact hleft hkind rfl hb
    · exact absurd hb List.not_mem_nil
  · rename_i hkind
    split_ifs at hb
    · exact hleft hkind rfl hb
    · exact absurd hb List.not_mem_nil
  · rename_i hkind
    exact hleft hkind rfl hb
  · exact absurd hb List.not_mem_nil

theorem allBindingsOf_eq_flatMap (ts : List Tree) :
    Lower.allBindingsOf source ts = ts.flatMap (Lower.allBindings source) := by
  induction ts with
  | nil => rw [Lower.allBindingsOf]; rfl
  | cons t ts ih => rw [Lower.allBindingsOf, ih, List.flatMap_cons]

/-- All names are bound at what lies open in a tree. -/
theorem exists_exposedIn_of_mem_allBindings {t : Tree} {b : Binding}
    (hb : b ∈ Lower.allBindings source t) : ∃ n : Tree, n.ExposedIn t ∧ b.pos = n.start := by
  match t with
  | .leaf .. =>
    rw [Lower.allBindings] at hb
    exact absurd hb List.not_mem_nil
  | .node role kind children =>
    rw [Lower.allBindings] at hb
    split_ifs at hb with hkind
    · exact absurd hb List.not_mem_nil
    · rcases List.mem_append.mp hb with hb | hb
      · exact exists_exposedIn_of_mem_ownBindings hb
      · rw [allBindingsOf_eq_flatMap] at hb
        obtain ⟨c, hc, hb⟩ := List.mem_flatMap.mp hb
        obtain ⟨n, hn, hpos⟩ := exists_exposedIn_of_mem_allBindings hb
        exact ⟨n, .child rfl (Bool.eq_false_iff.mpr hkind) hc hn, hpos⟩
termination_by sizeOf t
decreasing_by exact Tree.sizeOf_lt_of_mem_children (t := .node role kind children) hc

/-- Names are bound at starts of tokens. -/
theorem pos_mem_of_mem_allBindings {t : Tree} (h : t.Within toks) {b : Binding}
    (hb : b ∈ Lower.allBindings source t) : b.pos ∈ toks.map Token.start := by
  obtain ⟨n, hn, hpos⟩ := exists_exposedIn_of_mem_allBindings hb
  rw [hpos]
  exact (hn.within h).start_mem

theorem pos_mem_of_mem_imports {t : Tree} (h : t.Within toks) {i : Import}
    (hi : i ∈ Lower.imports source t) : i.pos ∈ toks.map Token.start := by
  obtain ⟨c, hc, hi⟩ := List.mem_filterMap.mp hi
  obtain ⟨d, hd, hc⟩ := List.mem_flatMap.mp (List.mem_filter.mp hc).1
  have hd := h.of_mem_children hd
  have hc : c.Within toks := by
    split_ifs at hc
    · exact hd.of_mem_children hc
    · rw [List.mem_singleton.mp hc]
      exact hd
  rw [Lower.import?] at hi
  split_ifs at hi
  rw [← Option.some.inj hi]
  exact hc.start_mem

/-! ## Functions -/

section Functions

variable {t : Tree} (ht : t.WellFormed) (hfunction : t.isFunction = true) (above : List Piece)

include ht hfunction

/-- All places of a function are starts of its tokens. -/
theorem places_function_subset :
    (Lower.function source above t).places ⊆ t.tokens.map Token.start := by
  have hwithin : t.Within t.tokens := ⟨ht, List.Subset.refl _⟩
  rw [FunctionDecl.places]
  refine List.cons_subset.mpr ⟨hwithin.start_mem, fun pos hpos ↦ ?_⟩
  obtain ⟨b, hb, hpos⟩ := List.mem_flatMap.mp hpos
  obtain ⟨c, hc, -, -, rfl⟩ := exists_body_of_function ht hfunction (Option.mem_toList.mp hb)
  exact View.places_block_subset source (hwithin.of_mem_children hc) hpos

/-- The function, its body and the nodes in it start in the order of its tokens. -/
theorem starts_function_sublist :
    (Lower.function source above t).starts <+ t.tokens.map Token.start := by
  obtain ⟨token, rest, hcons, hstart⟩ := ht.exists_start
  rw [FunctionDecl.starts, hcons, List.map_cons, ← hstart]
  refine List.Sublist.cons_cons _ ?_
  cases hbody : (Lower.function source above t).body with
  | none => exact List.nil_sublist _
  | some b =>
    obtain ⟨c, hc, hkind, hsublist, rfl⟩ := exists_body_of_function ht hfunction hbody
    rw [hcons] at hsublist
    simpa using (View.lbrace_cons_sublist source (ht.of_mem_children hc) hkind).trans
      (hsublist.map Token.start)

end Functions

variable {trees : List Tree}

/-- The positions of a function come before those of the functions behind it. -/
theorem TreesOf.pairwise_functions (h : TreesOf source trees) (before : List Piece) :
    (Lower.functions source before trees).Pairwise fun f g ↦
      ∀ p ∈ f.places, ∀ q ∈ g.places, p.offset < q.offset := by
  obtain ⟨decls, hdecls, htrees⟩ := exists_functions_eq_map source before trees
  have hmem {d : List Piece × Tree} (hd : d ∈ decls) {p : Position}
      (hp : p ∈ (Lower.function source d.1 d.2).places) : p ∈ d.2.tokens.map Token.start := by
    obtain ⟨ht, hfunction⟩ := mem_of_map_snd_eq htrees hd
    exact places_function_subset (h.wellFormed d.2 ht) hfunction d.1 hp
  have htokens := (List.pairwise_flatMap.mp h.laid.pairwise_offset_lt).2.filter Tree.isFunction
  rw [← htrees, List.pairwise_map] at htokens
  rw [hdecls, List.pairwise_map]
  refine htokens.imp_of_mem fun {d e} hd he hlt p hp q hq ↦ ?_
  obtain ⟨x, hx, rfl⟩ := List.mem_map.mp (hmem hd hp)
  obtain ⟨y, hy, rfl⟩ := List.mem_map.mp (hmem he hq)
  exact hlt x hx y hy

/-- Function after function, the starts of a file increase. -/
theorem TreesOf.pairwise_starts (h : TreesOf source trees) (before : List Piece) :
    ((Lower.functions source before trees).flatMap FunctionDecl.starts).Pairwise
      fun p q ↦ p.offset < q.offset := by
  have hsublist : (Lower.functions source before trees).flatMap FunctionDecl.starts <+
      (trees.flatMap Tree.tokens).map Token.start := by
    rw [List.map_flatMap]
    exact flatMap_functions_sublist source fun above t ht hfunction ↦
      starts_function_sublist (h.wellFormed t ht) hfunction above
  refine List.Pairwise.sublist hsublist ?_
  rw [List.pairwise_map]
  exact h.laid.pairwise_offset_lt

theorem TreesOf.isAt_of_mem_places (h : TreesOf source trees) {file : SourceFile}
    (hfunctions : file.functions = Lower.functions source [] trees)
    (himports : file.imports = (Lower.ofKind .importDecl trees).flatMap (Lower.imports source)) :
    ∀ p ∈ file.places, p.IsAt source.toList := by
  have hisAt {p : Position} (hp : p ∈ (trees.flatMap Tree.tokens).map Token.start) :
      p.IsAt source.toList := by
    obtain ⟨token, htoken, rfl⟩ := List.mem_map.mp hp
    exact h.laid.isAt htoken
  intro p hp
  refine hisAt ?_
  rw [SourceFile.places, hfunctions, himports] at hp
  rcases List.mem_append.mp hp with hp | hp
  · obtain ⟨i, hi, rfl⟩ := List.mem_map.mp hp
    obtain ⟨t, ht, hi⟩ := List.mem_flatMap.mp hi
    exact pos_mem_of_mem_imports (h.within (List.mem_filter.mp ht).1) hi
  · obtain ⟨f, hf, hp⟩ := List.mem_flatMap.mp hp
    obtain ⟨t, ht, above, hfunction, rfl⟩ := exists_of_mem_functions hf
    have hwithin := h.within ht
    rcases List.mem_append.mp hp with hp | hp
    · have hp := places_function_subset hwithin.wellFormed hfunction above hp
      exact List.map_subset Token.start hwithin.subset hp
    · obtain ⟨b, hb, rfl⟩ := List.mem_map.mp hp
      exact pos_mem_of_mem_allBindings hwithin (List.mem_filter.mp hb).1

end Source

end GoComplexity
