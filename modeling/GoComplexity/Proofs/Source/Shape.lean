import GoComplexity.Proofs.Guard.Exemption
import GoComplexity.Proofs.Source.Files

/-!
# The shape of lowered bodies

The type of statements allows a clause anywhere and any statement as the first part of a conditional. The
bodies that come from a source use this freedom only as far as the language does: clauses stand directly
under a switch or select and nowhere else, what comes before a condition is a simple statement, and a
clause without list or operation is one that the source calls `default`.
-/

namespace GoComplexity

open Syntax

namespace Syntax

/-! ## Shapes -/

namespace Stmt

def isSimple : Stmt → Bool
  | .simple .. => true
  | _ => false

/-- Whether the statement is a clause of a switch. -/
def isCase : Stmt → Bool
  | .case .. => true
  | _ => false

/-- Whether the statement is a clause of a select. -/
def isComm : Stmt → Bool
  | .comm .. => true
  | _ => false

/-- Whether the statement can stand in a list of statements. -/
def isPlain (s : Stmt) : Bool := !s.isCase && !s.isComm

end Stmt

def Node.isClause : Node → Bool
  | .stmt s => s.isCase || s.isComm
  | _ => false

/-- Whether a block holds statements and no clauses. -/
def Block.IsPlain (b : Block) : Prop := ∀ s ∈ b.stmts, s.isPlain = true

/-- Whether a node has statements of the right form in each of its places; `isDefault` tells where the
word `default` is written. -/
def Node.WellShaped (isDefault : Position → Prop) : Node → Prop
  | .cond c => (∀ s ∈ c.init, s.isSimple = true) ∧ c.body.IsPlain ∧
    ∀ b, c.alternative = .elseBlock b → b.IsPlain
  | .stmt s => match s with
    | .cond _ => False
    | .loop _ _ _ body => body.IsPlain
    | .switch _ _ init _ body => (∀ s ∈ init, s.isSimple = true) ∧ ∀ s ∈ body.stmts, s.isCase = true
    | .select _ body => ∀ s ∈ body.stmts, s.isComm = true
    | .case pos list body => (list = [] ↔ isDefault pos) ∧ ∀ s ∈ body, s.isPlain = true
    | .comm pos operation body => (operation = none ↔ isDefault pos) ∧
      (∀ s ∈ operation, s.isSimple = true) ∧ ∀ s ∈ body, s.isPlain = true
    | .block b => b.IsPlain
    | .labeled _ _ inner => ∀ s ∈ inner, s.isPlain = true
    | .ret .. => True
    | .simple .. => True
  | .expr e => match e with
    | .funcLit body => body.IsPlain
    | _ => True

theorem Node.WellShaped.hasSimpleInit {isDefault : Position → Prop} {n : Node}
    (h : n.WellShaped isDefault) : n.hasSimpleInit = true := by
  cases n with
  | stmt => rfl
  | expr => rfl
  | cond c =>
    obtain ⟨pos, init, test, body, alternative⟩ := c
    cases init with
    | none => rfl
    | some s =>
      have hsimple := h.1 s rfl
      cases s with
      | simple => rfl
      | _ => exact absurd hsimple Bool.false_ne_true

end Syntax

namespace Source

/-- Whether a text is written in a source at a position. -/
def IsWritten (source : ByteArray) (text : String) (pos : Position) : Prop :=
  startsWith (source.toList.drop pos.offset) text = true

/-! ## Statements -/

namespace Lower

variable (source : ByteArray)

/-- Statements made from trees are no clauses. -/
theorem isPlain_stmt (t : Tree) : (stmt source t).isPlain = true := by
  rw [stmt]
  split
  · rfl
  · obtain ⟨kind, heq⟩ := loop_eq source t
    rw [heq]
    rfl
  · obtain ⟨kind, heq⟩ := switch_eq source t
    rw [heq]
    rfl
  · obtain ⟨kind, heq⟩ := switch_eq source t
    rw [heq]
    rfl
  · rw [select_eq]
    rfl
  all_goals rfl

theorem isPlain_of_mem_stmts {t : Tree} {s : Stmt} (h : s ∈ stmts source t) : s.isPlain = true := by
  rw [stmts_eq] at h
  obtain ⟨c, -, rfl⟩ := List.mem_map.mp h
  exact isPlain_stmt source c

theorem isPlain_block (t : Tree) : (block source t).IsPlain := by
  rw [block]
  exact fun s hs ↦ isPlain_of_mem_stmts source hs

theorem isPlain_roleBlock (t : Tree) (r : Role) : (roleBlock source t r).IsPlain := by
  rw [roleBlock]
  cases t.child? r with
  | none => exact fun s hs ↦ absurd hs List.not_mem_nil
  | some c => exact isPlain_block source c

/-- The kinds of trees that stand for a simple statement where one is asked for. -/
theorem isSimple_stmt {t : Tree} {k : Kind} (hkind : t.kind? = some k)
    (hk : k ∈ .receiveStmt :: Grammar.simpleKinds) : (stmt source t).isSimple = true := by
  simp only [Grammar.simpleKinds, List.mem_cons, List.not_mem_nil, or_false] at hk
  rw [stmt, hkind]
  rcases hk with rfl | rfl | rfl | rfl | rfl | rfl | rfl <;> rfl

/-- A child whose role is restricted to simple statements becomes one. -/
theorem isSimple_child? {t : Tree} (h : t.WellFormed) {k : Kind} (hkind : t.kind? = some k) {r : Role}
    {molds : List Mold} (hmolds : (r, molds) ∈ Grammar.restrictions k)
    (hsimple : molds ⊆ (.receiveStmt :: Grammar.simpleKinds).map .node) :
    ∀ s ∈ (t.child? r).map (stmt source), s.isSimple = true := by
  intro s hs
  obtain ⟨c, hc, rfl⟩ := Option.map_eq_some_iff.mp hs
  obtain ⟨m, hm, hfits⟩ := h.fits_of_child? hkind hmolds hc
  obtain ⟨k', hk', rfl⟩ := List.mem_map.mp (hsimple hm)
  exact isSimple_stmt source (Mold.kind?_of_fits_node hfits) hk'

end Lower

/-! ## Clauses -/

variable {source : ByteArray} {toks : List Token}

/-- A node that starts with a keyword starts where the keyword is written. -/
theorem isWritten_start (hlaid : Laid Position.start source.toList toks) {t : Tree}
    (h : t.Within toks) {k : Kind} (hkind : t.kind? = some k) {w : String} (hw : w ≠ "")
    (hopener : Grammar.openers k = some [Grammar.keywordLook w]) : IsWritten source w t.start := by
  obtain ⟨c, rest, hcons, l, hl, -, hfits⟩ := (h.wellFormed.content hkind).opens _ hopener
  rw [List.mem_singleton.mp hl] at hfits
  cases c with
  | node => exact hfits.elim
  | leaf role token =>
    have hword : token.kind = .word w := by
      change TokenClass.admits (.keyword w) token.kind = true at hfits
      cases htoken : token.kind <;> simp_all [TokenClass.admits]
    have htokens : t.tokens = token :: rest.flatMap Tree.tokens := by
      rw [Tree.tokens_eq_flatMap_children hkind, hcons]
      rfl
    rw [Tree.start_of_tokens_eq_cons htokens]
    exact hlaid.startsWith_of_word (h.subset (htokens ▸ List.mem_cons_self)) hword hw

/-- No place spells both `case` and `default`. -/
theorem not_isWritten_default {pos : Position} (h : IsWritten source "case" pos) :
    ¬ IsWritten source "default" pos := by
  intro hdefault
  have hdiffer : ¬ Text.utf8 "case" <+: Text.utf8 "default" := by
    simp only [Text.utf8, Text.toList_eq_data]
    decide +kernel
  refine hdiffer (List.prefix_of_prefix_length_le (List.isPrefixOf_iff_prefix.mp h)
    (List.isPrefixOf_iff_prefix.mp hdefault) ?_)
  rw [Text.length_utf8, Text.length_utf8]
  decide

theorem isNamed_of_admits {token : Token} {c : TokenClass} (h : c.admits token.kind = true)
    (hc : c ∈ [.literal, .constant, .maker, .name .expression]) :
    (Tree.leaf none token).isNamed = true := by
  simp only [List.mem_cons, List.not_mem_nil, or_false] at hc
  rcases hc with rfl | rfl | rfl | rfl <;> cases hkind : token.kind <;>
    simp_all [TokenClass.admits, Tree.isNamed]

theorem isNamed_of_fits_expressionLooks {t : Tree} {l : Look} (hl : l ∈ Grammar.expressionLooks)
    (h : l.Fits t) : t.isNamed = true := by
  cases t with
  | node => rfl
  | leaf role token =>
    rcases List.mem_append.mp hl with hl | hl
    · obtain ⟨c, hc, rfl⟩ := List.mem_map.mp hl
      obtain rfl : role = none := h.1
      exact isNamed_of_admits h.2 hc
    · obtain ⟨k, -, rfl⟩ := List.mem_map.mp hl
      exact h.2.elim

/-- A list of expressions has at least one. -/
theorem exprs_ne_nil {t : Tree} (h : t.WellFormed) (hkind : t.kind? = some .expressionList) :
    Lower.exprs source t ≠ [] := by
  obtain ⟨c, rest, hcons, l, hl, hfits⟩ := (h.content hkind).opens _ rfl
  have hc : c ∈ t.named :=
    List.mem_filter.mpr ⟨hcons ▸ List.mem_cons_self, isNamed_of_fits_expressionLooks hl hfits⟩
  rw [Lower.exprs_eq]
  exact List.ne_nil_of_mem (List.mem_map_of_mem hc)

/-- A child with a role that the node must have. -/
theorem exists_child?_of_needs {t : Tree} (h : t.WellFormed) {k : Kind} (hkind : t.kind? = some k)
    {r : Role} (hr : r ∈ Grammar.needs k) : ∃ c, t.child? r = some c := by
  obtain ⟨c, hc, hrole⟩ := (h.content hkind).needs r hr
  exact Option.isSome_iff_exists.mp (List.find?_isSome.mpr ⟨c, hc, beq_iff_eq.mpr hrole⟩)

/-- The list of a clause is empty exactly if the clause is the default one. -/
theorem list_eq_nil_iff (hlaid : Laid Position.start source.toList toks) {t : Tree}
    (h : (View.case t).Valid toks) :
    Lower.caseList source t = [] ↔ IsWritten source "default" t.start := by
  obtain ⟨hwithin, k, hk, hkind⟩ := h
  have hwell := hwithin.wellFormed
  simp only [View.caseKinds, List.mem_cons, List.not_mem_nil, or_false] at hk
  rcases hk with rfl | rfl | rfl
  · refine iff_of_false ?_
      (not_isWritten_default (isWritten_start hlaid hwithin hkind (by decide) rfl))
    obtain ⟨c, hc⟩ := exists_child?_of_needs hwell hkind List.mem_cons_self
    obtain ⟨m, hm, hfits⟩ := hwell.fits_of_child? hkind List.mem_cons_self hc
    rw [List.mem_singleton.mp hm] at hfits
    rw [Lower.caseList, hkind, hc]
    exact exprs_ne_nil (hwell.of_mem_children (Tree.mem_children_of_child? hc))
      (Mold.kind?_of_fits_node hfits)
  · refine iff_of_false ?_
      (not_isWritten_default (isWritten_start hlaid hwithin hkind (by decide) rfl))
    obtain ⟨c, hc, hrole⟩ := (hwell.content hkind).needs _ List.mem_cons_self
    have hmem : c ∈ t.children.filter fun c ↦ c.role == some .type :=
      List.mem_filter.mpr ⟨hc, beq_iff_eq.mpr hrole⟩
    rw [Lower.caseList, hkind]
    exact List.ne_nil_of_mem (List.mem_map_of_mem hmem)
  · rw [Lower.caseList, hkind]
    exact iff_of_true rfl (isWritten_start hlaid hwithin hkind (by decide) rfl)

/-- A clause of a select has no operation exactly if it is the default one. -/
theorem child?_communication_eq_none_iff (hlaid : Laid Position.start source.toList toks) {t : Tree}
    (h : (View.comm t).Valid toks) :
    t.child? .communication = none ↔ IsWritten source "default" t.start := by
  obtain ⟨hwithin, k, hk, hkind⟩ := h
  simp only [View.commKinds, List.mem_cons, List.not_mem_nil, or_false] at hk
  rcases hk with rfl | rfl
  · refine iff_of_false ?_
      (not_isWritten_default (isWritten_start hlaid hwithin hkind (by decide) rfl))
    obtain ⟨c, hc⟩ := exists_child?_of_needs hwithin.wellFormed hkind List.mem_cons_self
    exact hc ▸ Option.some_ne_none c
  · refine iff_of_true (Option.eq_none_iff_forall_not_mem.mpr fun c hc ↦ ?_)
      (isWritten_start hlaid hwithin hkind (by decide) rfl)
    obtain ⟨m, hm, -⟩ := hwithin.wellFormed.fits_of_child? hkind List.mem_cons_self hc
    exact absurd hm List.not_mem_nil

/-! ## Bodies -/

/-- Expressions are in shape. -/
theorem wellShaped_expr (t : Tree) (isDefault : Position → Prop) :
    (Node.expr (Lower.expr source t)).WellShaped isDefault := by
  cases heq : Lower.expr source t with
  | funcLit body =>
    rw [Lower.eq_roleBlock_of_expr_eq source t heq]
    exact Lower.isPlain_roleBlock source t .body
  | _ => trivial

/-- Conditionals are in shape. -/
theorem wellShaped_cond {t : Tree} (h : t.WellFormed) (hkind : t.kind? = some .ifStmt)
    (isDefault : Position → Prop) :
    (Node.cond (Lower.conditional source t)).WellShaped isDefault := by
  rw [Lower.conditional_eq]
  refine ⟨Lower.isSimple_child? source h hkind List.mem_cons_self (by decide),
    Lower.isPlain_roleBlock source t .consequence, fun b hb ↦ ?_⟩
  cases hchild : t.child? .alternative with
  | none => simp [Conditional.alternative, hchild] at hb
  | some c =>
    simp only [Conditional.alternative, hchild, Option.map_some, Option.getD_some,
      Lower.alternativeOf] at hb
    split_ifs at hb
    rw [← Alternative.elseBlock.inj hb]
    exact Lower.isPlain_block source c

/-- The body of a switch holds case clauses only. -/
theorem wellShaped_switch {t : Tree} (h : t.WellFormed) {k : Kind} (hkind : t.kind? = some k)
    (hmolds : (.initializer, Grammar.simpleKinds.map .node) ∈ Grammar.restrictions k)
    (isDefault : Position → Prop) :
    (Node.ofStmt (Lower.switch source t)).WellShaped isDefault := by
  obtain ⟨kind, hswitch⟩ := Lower.switch_eq source t
  rw [hswitch]
  refine ⟨Lower.isSimple_child? source h hkind hmolds (by decide), fun s hs ↦ ?_⟩
  obtain ⟨c, -, rfl⟩ := List.mem_map.mp hs
  rw [Lower.caseClause_eq]
  rfl

/-- The body of a select holds communication clauses only. -/
theorem wellShaped_select (t : Tree) (isDefault : Position → Prop) :
    (Node.ofStmt (Lower.select source t)).WellShaped isDefault := by
  rw [Lower.select_eq]
  intro s hs
  obtain ⟨c, -, rfl⟩ := List.mem_map.mp hs
  rw [Lower.commClause_eq]
  rfl

/-- Statements are in shape, form by form. -/
theorem wellShaped_stmt {t : Tree} (h : t.WellFormed) (isDefault : Position → Prop) :
    (Node.ofStmt (Lower.stmt source t)).WellShaped isDefault := by
  rw [Lower.stmt]
  split
  · rename_i hkind
    exact wellShaped_cond h hkind isDefault
  · obtain ⟨kind, hloop⟩ := Lower.loop_eq source t
    rw [hloop]
    exact Lower.isPlain_roleBlock source t .body
  · rename_i hkind
    exact wellShaped_switch h hkind List.mem_cons_self isDefault
  · rename_i hkind
    exact wellShaped_switch h hkind List.mem_cons_self isDefault
  · exact wellShaped_select t isDefault
  · exact Lower.isPlain_block source t
  · exact fun s hs ↦ Lower.isPlain_of_mem_stmts source (List.mem_of_mem_head? hs)
  all_goals trivial

/-- A communication clause has no operation exactly if `default` is written at its place. -/
theorem wellShaped_comm (hlaid : Laid Position.start source.toList toks) {t : Tree}
    (h : (View.comm t).Valid toks) :
    (Node.stmt (Lower.commClause source t)).WellShaped (IsWritten source "default") := by
  rw [Lower.commClause_eq]
  refine ⟨?_, ?_, fun s ↦ Lower.isPlain_of_mem_stmts source⟩
  · rw [Option.map_eq_none_iff]
    exact child?_communication_eq_none_iff hlaid h
  · obtain ⟨⟨hwell, -⟩, k, hk, hkind⟩ := h
    simp only [View.commKinds, List.mem_cons, List.not_mem_nil, or_false] at hk
    rcases hk with rfl | rfl
    · exact Lower.isSimple_child? source hwell hkind List.mem_cons_self (by decide)
    · exact Lower.isSimple_child? source hwell hkind List.mem_cons_self (List.nil_subset _)

/-- A valid view is lowered to a node of the right shape. -/
theorem wellShaped_node (hlaid : Laid Position.start source.toList toks) {v : View}
    (h : v.Valid toks) : (v.node source).WellShaped (IsWritten source "default") := by
  cases v with
  | expr t => exact wellShaped_expr t _
  | applied t => trivial
  | hole => trivial
  | stmt t => exact wellShaped_stmt h.wellFormed _
  | cond t => exact wellShaped_cond h.1.wellFormed h.2 _
  | case t =>
    rw [View.node, Lower.caseClause_eq]
    exact ⟨list_eq_nil_iff hlaid h, fun s ↦ Lower.isPlain_of_mem_stmts source⟩
  | comm t => exact wellShaped_comm hlaid h

/-- Conditionals of a source start with simple statements only, as exempting guards asks for. -/
theorem simpleInits_of_readSource {path : String} {file : SourceFile}
    (h : readSource path source = .ok file) : ∀ f ∈ file.functions, ∀ body ∈ f.body,
      body.SimpleInits := by
  intro f hf body hbody n hn
  obtain ⟨toks, c, hlaid, hc, rfl⟩ := exists_block_of_readSource h hf hbody
  have hshaped := View.forall_nodes_block (fun v hv ↦ wellShaped_node hlaid hv) hc n hn
  exact hshaped.hasSimpleInit

end Source

end GoComplexity
