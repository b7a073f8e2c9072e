import GoComplexity.Proofs.Source.Alike
import GoComplexity.Proofs.Source.ValidViews
import GoComplexity.Proofs.Syntax.Relabeling

/-!
# Bodies of alike trees

Trees that are alike and whose corresponding tokens are spelled alike are lowered to the same statements
and expressions, apart from positions. What is lowered from a tree is put together from what is lowered
from its children, and the children of alike trees are alike in pairs.
-/

namespace GoComplexity

open Syntax

/-- The relabeling that forgets all positions. -/
def Syntax.Relabeling.unplaced : Relabeling := ⟨id, fun _ ↦ Position.start⟩

@[simp]
theorem Syntax.Relabeling.place_unplaced (pos : Position) : unplaced.place pos = Position.start := rfl

namespace Source

open List

/-! ## Children in pairs -/

variable {S : Tree → Tree → Prop}

theorem forall₂_filter {p : Tree → Bool} (hp : ∀ c c', S c c' → p c' = p c) {ts ts' : List Tree}
    (h : Forall₂ S ts ts') : Forall₂ S (ts.filter p) (ts'.filter p) :=
  rel_filter (fun c c' hc ↦ by simp only [hp c c' hc]) h

theorem rel_find? {p : Tree → Bool} (hp : ∀ c c', S c c' → p c' = p c) {ts ts' : List Tree}
    (h : Forall₂ S ts ts') : Option.Rel S (ts.find? p) (ts'.find? p) := by
  induction h with
  | nil => exact .none
  | @cons c c' ts ts' hc _ ih =>
    rw [find?_cons, find?_cons, hp c c' hc]
    cases p c with
    | true => exact .some hc
    | false => exact ih

theorem isSome_eq_of_rel {x y : Option Tree} (h : Option.Rel S x y) : y.isSome = x.isSome := by
  cases h <;> rfl

theorem map_eq_of_rel {β : Type} {f g : Tree → β} (hfg : ∀ c c', S c c' → f c = g c')
    {x y : Option Tree} (h : Option.Rel S x y) : x.map f = y.map g := by
  cases h with
  | none => rfl
  | some h => exact congrArg some (hfg _ _ h)

theorem map_eq_of_forall₂ {β : Type} {f g : Tree → β} (hfg : ∀ c c', S c c' → f c = g c')
    {ts ts' : List Tree} (h : Forall₂ S ts ts') : ts.map f = ts'.map g := by
  induction h with
  | nil => rfl
  | cons hc _ ih => rw [map_cons, map_cons, hfg _ _ hc, ih]

theorem exists_of_rel {α : Type} {S : α → α → Prop} {x y : Option α} (h : Option.Rel S x y) {a : α}
    (ha : x = some a) : ∃ b, y = some b ∧ S a b := by
  cases h with
  | none => cases ha
  | some h => exact ⟨_, rfl, Option.some.inj ha ▸ h⟩

/-- Lists related one by one have a partner at every place. -/
theorem exists_getElem?_of_forall₂ {α : Type} {S : α → α → Prop} {xs ys : List α} (h : Forall₂ S xs ys)
    {i : ℕ} {x : α} (hx : xs[i]? = some x) : ∃ y, ys[i]? = some y ∧ S x y := by
  induction h generalizing i with
  | nil => simp at hx
  | @cons x₀ y₀ xs ys hxy _ ih =>
    cases i with
    | zero =>
      obtain rfl := Option.some.inj hx
      exact ⟨y₀, rfl, hxy⟩
    | succ i => exact ih hx

theorem Tree.text_leaf (source : ByteArray) (role : Option Role) (t : Token) :
    (leaf role t).text source = slice source t.start.offset t.stop.offset := rfl

/-- A node is no token. -/
theorem Tree.token?_of_kind? {t : Tree} {k : Kind} (h : t.kind? = some k) : t.token? = none := by
  cases t with
  | leaf => simp [kind?] at h
  | node => rfl

namespace Tree.Alike

variable {R : Token → Token → Prop} {t t' : Tree}

theorem role_eq (h : t.Alike R t') : t'.role = t.role := by
  cases h <;> rfl

theorem kind?_eq (h : t.Alike R t') : t'.kind? = t.kind? := by
  cases h <;> rfl

theorem hasKind_eq (h : t.Alike R t') (kind : Kind) : t'.hasKind kind = t.hasKind kind := by
  rw [hasKind, hasKind, h.kind?_eq]

/-- Of alike trees both are operands or none is. -/
theorem isNamed_eq (hR : Similarity R) (h : t.Alike R t') : t'.isNamed = t.isNamed := by
  cases h with
  | leaf role htoken => rw [isNamed, isNamed, hR.kind _ _ htoken]
  | node => rfl

theorem children (h : t.Alike R t') : Forall₂ (Tree.Alike R) t.children t'.children := by
  cases h with
  | leaf => exact .nil
  | node role kind hchildren => exact hchildren

theorem child? (h : t.Alike R t') (r : Role) :
    Option.Rel (Tree.Alike R) (t.child? r) (t'.child? r) :=
  rel_find? (fun _ _ hc ↦ by rw [hc.role_eq]) h.children

/-- Alike trees have related tokens. -/
theorem tokens (hwell : t.WellFormed) (h : t.Alike R t') : Forall₂ R t.tokens t'.tokens := by
  induction hwell generalizing t' with
  | leaf role token =>
    cases h with
    | leaf _ htoken => exact .cons htoken .nil
  | node role o hdescribes hadmits hchildren ih =>
    cases h with
    | node _ _ halike =>
      rw [tokens_node, tokens_node]
      have hpairs := (forall₂_and_left _ _).mpr ⟨ih, halike⟩
      exact rel_flatMap hpairs fun _ _ hc ↦ hc.1 hc.2

end Tree.Alike

/-! ## Agreement -/

/-- Two sources between which related tokens are spelled alike. -/
structure Respelled (R : Token → Token → Prop) (source source' : ByteArray) : Prop where
  similarity : Similarity R
  slice : ∀ t t', R t t' → slice source' t'.start.offset t'.stop.offset =
    slice source t.start.offset t.stop.offset

/-- Alike trees that are lowered to the same pieces of syntax, apart from positions. -/
structure Agrees (R : Token → Token → Prop) (source source' : ByteArray) (t t' : Tree) : Prop where
  alike : t.Alike R t'
  expr : (Lower.expr source t).relabel .unplaced = (Lower.expr source' t').relabel .unplaced
  exprs : (Lower.exprs source t).map (Expr.relabel .unplaced) =
    (Lower.exprs source' t').map (Expr.relabel .unplaced)
  stmt : (Lower.stmt source t).relabel .unplaced = (Lower.stmt source' t').relabel .unplaced
  block : (Lower.block source t).relabel .unplaced = (Lower.block source' t').relabel .unplaced
  conditional : (Lower.conditional source t).relabel .unplaced =
    (Lower.conditional source' t').relabel .unplaced
  caseClause : (Lower.caseClause source t).relabel .unplaced =
    (Lower.caseClause source' t').relabel .unplaced
  commClause : (Lower.commClause source t).relabel .unplaced =
    (Lower.commClause source' t').relabel .unplaced

/-- Alike trees whose children agree in pairs. -/
structure AgreesBelow (R : Token → Token → Prop) (source source' : ByteArray) (t t' : Tree) : Prop where
  respelled : Respelled R source source'
  wellFormed : t.WellFormed
  alike : t.Alike R t'
  children : Forall₂ (Agrees R source source') t.children t'.children

namespace AgreesBelow

variable {R : Token → Token → Prop} {source source' : ByteArray} {t t' : Tree}

theorem child? (h : AgreesBelow R source source' t t') (r : Role) :
    Option.Rel (Agrees R source source') (t.child? r) (t'.child? r) :=
  rel_find? (fun c c' hc ↦ by rw [hc.alike.role_eq]) h.children

theorem named (h : AgreesBelow R source source' t t') :
    Forall₂ (Agrees R source source') t.named t'.named :=
  forall₂_filter (fun _ _ hc ↦ hc.alike.isNamed_eq h.respelled.similarity) h.children

theorem statements (h : AgreesBelow R source source' t t') :
    Forall₂ (Agrees R source source') t.statements t'.statements :=
  forall₂_filter (fun c c' hc ↦ by rw [hc.alike.role_eq]) h.named

theorem header (h : AgreesBelow R source source' t t') :
    Forall₂ (Agrees R source source') t.header t'.header :=
  forall₂_filter (fun c c' hc ↦ by rw [hc.alike.role_eq]) h.named

theorem ofKinds (h : AgreesBelow R source source' t t') (kinds : List Kind) :
    Forall₂ (Agrees R source source') (t.ofKinds kinds) (t'.ofKinds kinds) :=
  forall₂_filter (fun c c' hc ↦ by rw [funext hc.alike.hasKind_eq]) h.children

/-! ### Pieces under a tree -/

theorem map_child? {β : Type} {f g : Tree → β} (h : AgreesBelow R source source' t t')
    (hfg : ∀ c c', Agrees R source source' c c' → f c = g c') (r : Role) :
    (t.child? r).map f = (t'.child? r).map g :=
  map_eq_of_rel hfg (h.child? r)

/-- What a child is lowered to agrees, and so does what stands in for a missing child. -/
theorem getD_child? {β γ : Type} (F : β → γ) {f g : Tree → β} (h : AgreesBelow R source source' t t')
    (hfg : ∀ c c', Agrees R source source' c c' → F (f c) = F (g c')) (r : Role) {d d' : β}
    (hd : F d = F d') : F (((t.child? r).map f).getD d) = F (((t'.child? r).map g).getD d') := by
  have hchild := h.child? r
  generalize t.child? r = x at hchild
  generalize t'.child? r = y at hchild
  cases hchild with
  | none => exact hd
  | some hc => exact hfg _ _ hc

theorem roleExpr (h : AgreesBelow R source source' t t') (r : Role) :
    (Lower.roleExpr source t r).relabel .unplaced =
      (Lower.roleExpr source' t' r).relabel .unplaced := by
  rw [Lower.roleExpr_eq, Lower.roleExpr_eq]
  exact h.getD_child? (Expr.relabel .unplaced) (fun _ _ hc ↦ hc.expr) r rfl

theorem roleExpr? (h : AgreesBelow R source source' t t') (r : Role) :
    ((t.child? r).map (Lower.expr source)).map (Expr.relabel .unplaced) =
      ((t'.child? r).map (Lower.expr source')).map (Expr.relabel .unplaced) := by
  rw [Option.map_map, Option.map_map]
  exact h.map_child? (fun _ _ hc ↦ hc.expr) r

theorem roleStmt? (h : AgreesBelow R source source' t t') (r : Role) :
    ((t.child? r).map (Lower.stmt source)).map (Stmt.relabel .unplaced) =
      ((t'.child? r).map (Lower.stmt source')).map (Stmt.relabel .unplaced) := by
  rw [Option.map_map, Option.map_map]
  exact h.map_child? (fun _ _ hc ↦ hc.stmt) r

theorem roleBlock (h : AgreesBelow R source source' t t') (r : Role) :
    (Lower.roleBlock source t r).relabel .unplaced =
      (Lower.roleBlock source' t' r).relabel .unplaced :=
  h.getD_child? (Block.relabel .unplaced) (fun _ _ hc ↦ hc.block) r rfl

theorem roleExprs (h : AgreesBelow R source source' t t') (r : Role) :
    (((t.child? r).map (Lower.exprs source)).getD []).map (Expr.relabel .unplaced) =
      (((t'.child? r).map (Lower.exprs source')).getD []).map (Expr.relabel .unplaced) :=
  h.getD_child? (List.map (Expr.relabel .unplaced)) (fun _ _ hc ↦ hc.exprs) r rfl

theorem exprs (h : AgreesBelow R source source' t t') :
    (Lower.exprs source t).map (Expr.relabel .unplaced) =
      (Lower.exprs source' t').map (Expr.relabel .unplaced) := by
  rw [Lower.exprs_eq, Lower.exprs_eq, map_map, map_map]
  exact map_eq_of_forall₂ (fun _ _ hc ↦ hc.expr) h.named

theorem stmts (h : AgreesBelow R source source' t t') :
    (Lower.stmts source t).map (Stmt.relabel .unplaced) =
      (Lower.stmts source' t').map (Stmt.relabel .unplaced) := by
  rw [Lower.stmts_eq, Lower.stmts_eq, map_map, map_map]
  exact map_eq_of_forall₂ (fun _ _ hc ↦ hc.stmt) h.statements

theorem flatExprs (h : AgreesBelow R source source' t t') :
    (Lower.flatExprs source t).map (Expr.relabel .unplaced) =
      (Lower.flatExprs source' t').map (Expr.relabel .unplaced) := by
  simp only [Lower.flatExprs_eq, ← Lower.exprs_eq, map_flatMap]
  rw [flatMap_def, flatMap_def]
  refine congrArg flatten (map_eq_of_forall₂ (fun c c' hc ↦ ?_) h.named)
  rw [hc.alike.hasKind_eq]
  split
  · exact hc.exprs
  · rw [map_singleton, map_singleton, hc.expr]

/-- A child that is always a single token has the same text. -/
theorem roleText (h : AgreesBelow R source source' t t') {k : Kind} (hkind : t.kind? = some k)
    {r : Role} {m : Mold} (hmold : (r, [m]) ∈ Grammar.restrictions k) (hm : ∀ k', m ≠ .node k') :
    ((t.child? r).map (Tree.text source)).getD "" = ((t'.child? r).map (Tree.text source')).getD "" := by
  have hfits (c : Tree) (hc : t.child? r = some c) : ∃ m' ∈ [m], m'.Fits c :=
    h.wellFormed.fits_of_child? hkind hmold hc
  have hchild := h.child? r
  generalize t.child? r = x at hchild hfits
  generalize t'.child? r = y at hchild
  cases hchild with
  | none => simp only [Option.map_none]
  | @some c c' hc =>
    rw [Option.map_some, Option.map_some, Option.getD_some, Option.getD_some]
    obtain ⟨m', hm', hfit⟩ := hfits c rfl
    obtain rfl := mem_singleton.mp hm'
    cases hc.alike with
    | leaf role htoken =>
      rw [Tree.text_leaf, Tree.text_leaf]
      exact (h.respelled.slice _ _ htoken).symm
    | node role kind => exact absurd (hfit.eq_node rfl) (hm kind)

/-! ### Trees -/

theorem call (h : AgreesBelow R source source' t t') :
    (Lower.call source t).relabel .unplaced = (Lower.call source' t').relabel .unplaced := by
  rw [Lower.call_eq, Lower.call_eq]
  have hcallee := h.child? .callee
  have harguments := h.child? .arguments
  rw [isSome_eq_of_rel (h.child? .typeArguments)]
  generalize t.child? .callee = x at hcallee
  generalize t'.child? .callee = x' at hcallee
  generalize t.child? .arguments = y at harguments
  generalize t'.child? .arguments = y' at harguments
  cases hcallee with
  | none => rfl
  | some hcallee =>
    cases harguments with
    | none => rfl
    | some harguments =>
      simp only [Expr.relabel, relabelExprs_eq_map, harguments.exprs]
      split
      · simp only [Expr.relabel, relabelExprs_eq_map, map_singleton, hcallee.expr]
      · rw [hcallee.expr]

/-- Related tokens stand for the same expression. -/
theorem token (h : Respelled R source source') {tok tok' : Token} (htoken : R tok tok') :
    Lower.token source' tok' = Lower.token source tok := by
  rw [Lower.token, Lower.token, h.similarity.kind _ _ htoken, h.slice _ _ htoken]

/-- The step for expressions: each kind of node is made of what the parts agree on. -/
theorem expr (h : AgreesBelow R source source' t t') :
    (Lower.expr source t).relabel .unplaced = (Lower.expr source' t').relabel .unplaced := by
  cases hkind : t.kind? with
  | none =>
    cases h.alike with
    | node => simp [Tree.kind?] at hkind
    | leaf role htoken =>
      rw [Lower.expr, Lower.expr]
      exact congrArg (Expr.relabel .unplaced) (token h.respelled htoken).symm
  | some kind =>
    have hkind' := h.alike.kind?_eq.trans hkind
    rw [Lower.expr, Lower.expr, Tree.token?_of_kind? hkind, Tree.token?_of_kind? hkind', hkind, hkind']
    cases kind
    case composite =>
      simp only [Tree.map_part?, Tree.map_part? t .body (Lower.exprs source),
        Tree.map_part? t' .body (Lower.exprs source'), Expr.relabel, relabelExpr?_eq_map,
        relabelExprs_eq_map, h.roleExpr?, h.roleExprs]
    case literalValue => simp only [Expr.relabel, relabelExpr?_eq_map, relabelExprs_eq_map, h.exprs]
    case call => exact h.call
    case conversion =>
      simp only [Tree.map_part?, Expr.relabel, relabelExprs_eq_map, ← Option.toList_map, h.roleExpr,
        h.roleExpr?]
    case selector =>
      simp only [Expr.relabel, h.roleExpr]
      rw [h.roleText hkind (mem_singleton.mpr rfl) (by simp)]
    case funcLiteral =>
      simp only [Tree.map_part? t .body (Lower.block source),
        Tree.map_part? t' .body (Lower.block source')]
      exact congrArg Expr.funcLit (h.roleBlock .body)
    case binary =>
      simp only [Expr.relabel, h.roleExpr]
      rw [h.roleText hkind (mem_singleton.mpr rfl) (by simp)]
    -- The other kinds have their named children as parts.
    all_goals simp only [Expr.relabel, relabelExprs_eq_map, h.exprs]

/-- Bodies agree as soon as their statements do. -/
theorem block (h : AgreesBelow R source source' t t') :
    (Lower.block source t).relabel .unplaced = (Lower.block source' t').relabel .unplaced := by
  simp only [Lower.block, Block.relabel, relabelStmts_eq_map, h.stmts, Relabeling.place_unplaced]

theorem alternative (h : AgreesBelow R source source' t t') :
    (((t.child? .alternative).map (Lower.alternativeOf source)).getD .absent).relabel .unplaced =
      (((t'.child? .alternative).map (Lower.alternativeOf source')).getD .absent).relabel .unplaced := by
  refine h.getD_child? (Alternative.relabel .unplaced) (fun c c' hc ↦ ?_) .alternative rfl
  rw [Lower.alternativeOf, Lower.alternativeOf, hc.alike.hasKind_eq]
  split
  · exact congrArg Alternative.elseIf hc.conditional
  · exact congrArg Alternative.elseBlock hc.block

/-- The step for conditionals: initializer, condition, body and alternative agree one by one. -/
theorem conditional (h : AgreesBelow R source source' t t') :
    (Lower.conditional source t).relabel .unplaced =
      (Lower.conditional source' t').relabel .unplaced := by
  simp only [Lower.conditional_eq, Conditional.relabel, relabelStmt?_eq_map, h.roleStmt?, h.roleExpr,
    h.roleBlock, h.alternative, Relabeling.place_unplaced]

theorem caseClause (h : AgreesBelow R source source' t t') :
    (Lower.caseClause source t).relabel .unplaced =
      (Lower.caseClause source' t').relabel .unplaced := by
  have hlist : (Lower.caseList source t).map (Expr.relabel .unplaced) =
      (Lower.caseList source' t').map (Expr.relabel .unplaced) := by
    rw [Lower.caseList, Lower.caseList, h.alike.kind?_eq]
    split
    · exact h.roleExprs .value
    · rw [map_map, map_map]
      exact map_eq_of_forall₂ (fun _ _ hc ↦ hc.expr)
        (forall₂_filter (fun c c' hc ↦ by rw [hc.alike.role_eq]) h.children)
    · rfl
  simp only [Lower.caseClause_eq, Stmt.relabel, relabelExprs_eq_map, relabelStmts_eq_map, hlist, h.stmts,
    Relabeling.place_unplaced]

theorem commClause (h : AgreesBelow R source source' t t') :
    (Lower.commClause source t).relabel .unplaced =
      (Lower.commClause source' t').relabel .unplaced := by
  simp only [Lower.commClause_eq, Stmt.relabel, relabelStmt?_eq_map, relabelStmts_eq_map, h.roleStmt?,
    h.stmts, Relabeling.place_unplaced]

theorem loop (h : AgreesBelow R source source' t t') :
    (Lower.loop source t).relabel .unplaced = (Lower.loop source' t').relabel .unplaced := by
  have hheader : (t.header.map (Lower.expr source)).map (Expr.relabel .unplaced) =
      (t'.header.map (Lower.expr source')).map (Expr.relabel .unplaced) := by
    rw [map_map, map_map]
    exact map_eq_of_forall₂ (fun _ _ hc ↦ hc.expr) h.header
  have hkind : Lower.loopKind t' = Lower.loopKind t := by
    have hranges : t.header.map (·.hasKind .rangeClause) = t'.header.map (·.hasKind .rangeClause) :=
      map_eq_of_forall₂ (fun _ _ hc ↦ (hc.alike.hasKind_eq .rangeClause).symm) h.header
    have hany := congrArg (List.any · id) hranges
    simp only [any_map, Function.id_comp] at hany
    rw [Lower.loopKind, Lower.loopKind, hany]
  simp only [Lower.loop_eq_header, Stmt.relabel, relabelExprs_eq_map, hheader, hkind, h.roleBlock,
    Relabeling.place_unplaced]

theorem switch (h : AgreesBelow R source source' t t') :
    (Lower.switch source t).relabel .unplaced = (Lower.switch source' t').relabel .unplaced := by
  have hclauses : ((t.ofKinds [.expressionCase, .typeCase, .defaultCase]).map
      (Lower.caseClause source)).map (Stmt.relabel .unplaced) =
      ((t'.ofKinds [.expressionCase, .typeCase, .defaultCase]).map
        (Lower.caseClause source')).map (Stmt.relabel .unplaced) := by
    rw [map_map, map_map]
    exact map_eq_of_forall₂ (fun _ _ hc ↦ hc.caseClause) (h.ofKinds _)
  have hkind : Lower.switchKind t' = Lower.switchKind t := by
    rw [Lower.switchKind, Lower.switchKind, h.alike.hasKind_eq]
  simp only [Lower.switch_eq_clauses, Stmt.relabel, Block.relabel, relabelStmt?_eq_map,
    relabelExpr?_eq_map, relabelStmts_eq_map, h.roleStmt?, h.roleExpr?, hkind, hclauses,
    Relabeling.place_unplaced]

theorem select (h : AgreesBelow R source source' t t') :
    (Lower.select source t).relabel .unplaced = (Lower.select source' t').relabel .unplaced := by
  have hclauses : ((t.ofKinds [.communicationCase, .defaultCase]).map (Lower.commClause source)).map
      (Stmt.relabel .unplaced) = ((t'.ofKinds [.communicationCase, .defaultCase]).map
        (Lower.commClause source')).map (Stmt.relabel .unplaced) := by
    rw [map_map, map_map]
    exact map_eq_of_forall₂ (fun _ _ hc ↦ hc.commClause) (h.ofKinds _)
  simp only [Lower.select_eq, Stmt.relabel, Block.relabel, relabelStmts_eq_map, hclauses,
    Relabeling.place_unplaced]

/-- The step for statements, form by form. -/
theorem stmt (h : AgreesBelow R source source' t t') :
    (Lower.stmt source t).relabel .unplaced = (Lower.stmt source' t').relabel .unplaced := by
  cases hkind : t.kind? with
  | none =>
    rw [Lower.stmt, Lower.stmt, h.alike.kind?_eq, hkind]
    simp only [Stmt.relabel, Relabeling.place_unplaced]
  | some kind =>
    rw [Lower.stmt, Lower.stmt, h.alike.kind?_eq, hkind]
    cases kind
    case ifStmt => exact congrArg Stmt.cond h.conditional
    case forStmt => exact h.loop
    case expressionSwitch => exact h.switch
    case typeSwitch => exact h.switch
    case selectStmt => exact h.select
    case block => exact congrArg Stmt.block h.block
    case labeledStmt =>
      simp only [Stmt.relabel, relabelStmt?_eq_map, ← head?_map, h.stmts, Relabeling.place_unplaced]
      rw [h.roleText hkind (mem_singleton.mpr rfl) (by simp)]
    -- The other statements have the expressions under them as parts.
    all_goals simp only [Stmt.relabel, relabelExprs_eq_map, h.flatExprs, Relabeling.place_unplaced]

/-- Trees that agree on everything below agree themselves. -/
theorem agrees (h : AgreesBelow R source source' t t') : Agrees R source source' t t' where
  alike := h.alike
  expr := h.expr
  exprs := h.exprs
  stmt := h.stmt
  block := h.block
  conditional := h.conditional
  caseClause := h.caseClause
  commClause := h.commClause

end AgreesBelow

/-- Alike trees are lowered to the same pieces of syntax, apart from positions. -/
theorem agrees_of_alike {R : Token → Token → Prop} {source source' : ByteArray}
    (hrespelled : Respelled R source source') {t t' : Tree} (hwell : t.WellFormed)
    (halike : t.Alike R t') : Agrees R source source' t t' := by
  induction hwell generalizing t' with
  | leaf role token =>
    refine AgreesBelow.agrees ⟨hrespelled, .leaf role token, halike, ?_⟩
    cases halike
    exact .nil
  | @node role kind children o hdescribes hadmits hchildren ih =>
    refine AgreesBelow.agrees ⟨hrespelled, .node role o hdescribes hadmits hchildren, halike, ?_⟩
    have hpairs := (forall₂_and_left _ _).mpr ⟨ih, halike.children⟩
    exact hpairs.imp fun c c' hc ↦ hc.1 hc.2

end Source

end GoComplexity
