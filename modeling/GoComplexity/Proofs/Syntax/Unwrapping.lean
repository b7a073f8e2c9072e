import GoComplexity.Metric.FanOut
import GoComplexity.Proofs.Guard.Erasure
import GoComplexity.Proofs.Syntax.PartKinds

/-!
# Unwrapping blocks and labels

Unwrapping takes one element of one statement list: it puts the statements of a bare block, at least one,
in the place of the block, or a statement in the place of its label and itself. The list may lie anywhere
in a body. If it is the first block of a conditional, the conditional has to be an error guard both before
and after or at neither time; everywhere else this follows. What a fragment is unwrapped to differs from
it in one group of sibling nodes at one place.
-/

namespace GoComplexity.Syntax

/-! ## One element of one list -/

/-- What a statement list can lie in. -/
inductive Fragment where
  | expr (e : Expr)
  | exprs (es : List Expr)
  | stmt (s : Stmt)
  | stmts (stmts : List Stmt)
  | block (b : Block)
  | conditional (c : Conditional)

/-- One element of a statement list gives way to what it wraps. -/
inductive UnwrapsElement : List Stmt → List Stmt → Prop
  | block (before after : List Stmt) (lbrace : Position) {inner : List Stmt} (h : inner ≠ []) :
    UnwrapsElement (before ++ .block (.mk lbrace inner) :: after) (before ++ inner ++ after)
  | label (before after : List Stmt) (pos : Position) (label : String) (s : Stmt) :
    UnwrapsElement (before ++ .labeled pos label (some s) :: after) (before ++ s :: after)

/-- One element of one statement list in a fragment is unwrapped. -/
inductive Unwraps : Fragment → Fragment → Prop
  | here {stmts stmts' : List Stmt} (h : UnwrapsElement stmts stmts') :
    Unwraps (.stmts stmts) (.stmts stmts')
  | element (before after : List Stmt) {s s' : Stmt} (h : Unwraps (.stmt s) (.stmt s')) :
    Unwraps (.stmts (before ++ s :: after)) (.stmts (before ++ s' :: after))
  | braces (lbrace : Position) {stmts stmts' : List Stmt} (h : Unwraps (.stmts stmts) (.stmts stmts')) :
    Unwraps (.block (.mk lbrace stmts)) (.block (.mk lbrace stmts'))
  | listed (before after : List Expr) {e e' : Expr} (h : Unwraps (.expr e) (.expr e')) :
    Unwraps (.exprs (before ++ e :: after)) (.exprs (before ++ e' :: after))
  | type (elements : List Expr) {e e' : Expr} (h : Unwraps (.expr e) (.expr e')) :
    Unwraps (.expr (.composite (some e) elements)) (.expr (.composite (some e') elements))
  | elements (type : Option Expr) {es es' : List Expr} (h : Unwraps (.exprs es) (.exprs es')) :
    Unwraps (.expr (.composite type es)) (.expr (.composite type es'))
  | callee (args : List Expr) {e e' : Expr} (h : Unwraps (.expr e) (.expr e')) :
    Unwraps (.expr (.call e args)) (.expr (.call e' args))
  | args (callee : Expr) {es es' : List Expr} (h : Unwraps (.exprs es) (.exprs es')) :
    Unwraps (.expr (.call callee es)) (.expr (.call callee es'))
  | operand (name : String) {e e' : Expr} (h : Unwraps (.expr e) (.expr e')) :
    Unwraps (.expr (.selector e name)) (.expr (.selector e' name))
  | literal {b b' : Block} (h : Unwraps (.block b) (.block b')) :
    Unwraps (.expr (.funcLit b)) (.expr (.funcLit b'))
  | left (op : String) (right : Expr) {e e' : Expr} (h : Unwraps (.expr e) (.expr e')) :
    Unwraps (.expr (.binary op e right)) (.expr (.binary op e' right))
  | right (op : String) (left : Expr) {e e' : Expr} (h : Unwraps (.expr e) (.expr e')) :
    Unwraps (.expr (.binary op left e)) (.expr (.binary op left e'))
  | other {es es' : List Expr} (h : Unwraps (.exprs es) (.exprs es')) :
    Unwraps (.expr (.other es)) (.expr (.other es'))
  | init (pos : Position) (test : Expr) (body : Block) (alternative : Alternative) {s s' : Stmt}
    (h : Unwraps (.stmt s) (.stmt s')) :
    Unwraps (.conditional (.mk pos (some s) test body alternative))
      (.conditional (.mk pos (some s') test body alternative))
  | test (pos : Position) (init : Option Stmt) (body : Block) (alternative : Alternative) {e e' : Expr}
    (h : Unwraps (.expr e) (.expr e')) :
    Unwraps (.conditional (.mk pos init e body alternative))
      (.conditional (.mk pos init e' body alternative))
  /-- The list is the first block of the conditional, which keeps its verdict. -/
  | thenBlock {pos : Position} {init : Option Stmt} {test : Expr} {lbrace : Position}
    {alternative : Alternative} {stmts stmts' : List Stmt} (h : UnwrapsElement stmts stmts')
    (hguard : (Conditional.mk pos init test (.mk lbrace stmts') alternative).isGuard =
      (Conditional.mk pos init test (.mk lbrace stmts) alternative).isGuard) :
    Unwraps (.conditional (.mk pos init test (.mk lbrace stmts) alternative))
      (.conditional (.mk pos init test (.mk lbrace stmts') alternative))
  /-- The list lies in an element of the first block. -/
  | thenElement (pos : Position) (init : Option Stmt) (test : Expr) (lbrace : Position)
    (alternative : Alternative) (before after : List Stmt) {s s' : Stmt}
    (h : Unwraps (.stmt s) (.stmt s')) :
    Unwraps (.conditional (.mk pos init test (.mk lbrace (before ++ s :: after)) alternative))
      (.conditional (.mk pos init test (.mk lbrace (before ++ s' :: after)) alternative))
  | elseIf (pos : Position) (init : Option Stmt) (test : Expr) (body : Block) {c c' : Conditional}
    (h : Unwraps (.conditional c) (.conditional c')) :
    Unwraps (.conditional (.mk pos init test body (.elseIf c)))
      (.conditional (.mk pos init test body (.elseIf c')))
  | elseBlock (pos : Position) (init : Option Stmt) (test : Expr) (body : Block) {b b' : Block}
    (h : Unwraps (.block b) (.block b')) :
    Unwraps (.conditional (.mk pos init test body (.elseBlock b)))
      (.conditional (.mk pos init test body (.elseBlock b')))
  | cond {c c' : Conditional} (h : Unwraps (.conditional c) (.conditional c')) :
    Unwraps (.stmt (.cond c)) (.stmt (.cond c'))
  | header (pos : Position) (kind : LoopKind) (body : Block) {es es' : List Expr}
    (h : Unwraps (.exprs es) (.exprs es')) :
    Unwraps (.stmt (.loop pos kind es body)) (.stmt (.loop pos kind es' body))
  | loopBody (pos : Position) (kind : LoopKind) (header : List Expr) {b b' : Block}
    (h : Unwraps (.block b) (.block b')) :
    Unwraps (.stmt (.loop pos kind header b)) (.stmt (.loop pos kind header b'))
  | switchInit (pos : Position) (kind : SwitchKind) (tag : Option Expr) (body : Block) {s s' : Stmt}
    (h : Unwraps (.stmt s) (.stmt s')) :
    Unwraps (.stmt (.switch pos kind (some s) tag body)) (.stmt (.switch pos kind (some s') tag body))
  | tag (pos : Position) (kind : SwitchKind) (init : Option Stmt) (body : Block) {e e' : Expr}
    (h : Unwraps (.expr e) (.expr e')) :
    Unwraps (.stmt (.switch pos kind init (some e) body)) (.stmt (.switch pos kind init (some e') body))
  | switchBody (pos : Position) (kind : SwitchKind) (init : Option Stmt) (tag : Option Expr)
    {b b' : Block} (h : Unwraps (.block b) (.block b')) :
    Unwraps (.stmt (.switch pos kind init tag b)) (.stmt (.switch pos kind init tag b'))
  | selectBody (pos : Position) {b b' : Block} (h : Unwraps (.block b) (.block b')) :
    Unwraps (.stmt (.select pos b)) (.stmt (.select pos b'))
  | caseList (pos : Position) (body : List Stmt) {es es' : List Expr}
    (h : Unwraps (.exprs es) (.exprs es')) :
    Unwraps (.stmt (.case pos es body)) (.stmt (.case pos es' body))
  | caseBody (pos : Position) (list : List Expr) {stmts stmts' : List Stmt}
    (h : Unwraps (.stmts stmts) (.stmts stmts')) :
    Unwraps (.stmt (.case pos list stmts)) (.stmt (.case pos list stmts'))
  | operation (pos : Position) (body : List Stmt) {s s' : Stmt} (h : Unwraps (.stmt s) (.stmt s')) :
    Unwraps (.stmt (.comm pos (some s) body)) (.stmt (.comm pos (some s') body))
  | commBody (pos : Position) (operation : Option Stmt) {stmts stmts' : List Stmt}
    (h : Unwraps (.stmts stmts) (.stmts stmts')) :
    Unwraps (.stmt (.comm pos operation stmts)) (.stmt (.comm pos operation stmts'))
  | bareBlock {b b' : Block} (h : Unwraps (.block b) (.block b')) :
    Unwraps (.stmt (.block b)) (.stmt (.block b'))
  | labeled (pos : Position) (label : String) {s s' : Stmt} (h : Unwraps (.stmt s) (.stmt s')) :
    Unwraps (.stmt (.labeled pos label (some s))) (.stmt (.labeled pos label (some s')))
  | results (pos : Position) {es es' : List Expr} (h : Unwraps (.exprs es) (.exprs es')) :
    Unwraps (.stmt (.ret pos es)) (.stmt (.ret pos es'))
  | simple (pos : Position) (kind : SimpleKind) {es es' : List Expr}
    (h : Unwraps (.exprs es) (.exprs es')) :
    Unwraps (.stmt (.simple pos kind es)) (.stmt (.simple pos kind es'))

/-- One element of one statement list in an expression is unwrapped. -/
def Expr.Unwraps (e e' : Expr) : Prop := Syntax.Unwraps (.expr e) (.expr e')

/-- An expression stays as it is or is unwrapped. -/
def Expr.MayUnwrap (e e' : Expr) : Prop := e' = e ∨ e.Unwraps e'

/-- One element of one statement list in a body is unwrapped. -/
def Block.Unwraps (b b' : Block) : Prop := Syntax.Unwraps (.block b) (.block b')

/-! ## Verdicts on error guards -/

section Verdicts

variable {e e' : Expr} {es es' : List Expr} {s s' : Stmt}

theorem isEmpty_of_unwraps (h : Unwraps (.exprs es) (.exprs es')) : es'.isEmpty = es.isEmpty := by
  cases h with
  | listed before after _ => cases before <;> rfl

theorem Expr.Unwraps.ident?_eq (h : e.Unwraps e') : e'.ident? = e.ident? := by
  cases h <;> rfl

theorem Expr.Unwraps.propagates_eq (h : e.Unwraps e') (name : String) :
    e'.propagates name = e.propagates name := by
  cases h <;> rfl

/-- No zero value holds a statement list. -/
theorem Expr.Unwraps.isZeroValue_eq (h : e.Unwraps e') : e'.isZeroValue = e.isZeroValue := by
  cases h with
  | elements type h => exact isEmpty_of_unwraps h
  | _ => rfl

theorem Expr.Unwraps.notNil?_eq (h : e.Unwraps e') : e'.notNil? = e.notNil? := by
  cases h with
  | left op right h => simp only [notNil?, ident?_eq h]
  | right op left h => simp only [notNil?, ident?_eq h]
  | _ => rfl

theorem propagatesError_concat (name : String) (zeros : List Expr) (last : Expr) :
    propagatesError name (zeros ++ [last]) =
      (last.propagates name && zeros.all Expr.isZeroValue) := by
  simp [propagatesError]

/-- The results of a return propagate an error as before, whatever is rewritten in them. -/
theorem propagatesError_of_unwraps (h : Unwraps (.exprs es) (.exprs es')) (name : String) :
    propagatesError name es' = propagatesError name es := by
  cases h with
  | @listed before after e e' h =>
    rcases after.eq_nil_or_concat' with rfl | ⟨zeros, last, rfl⟩
    · rw [propagatesError_concat, propagatesError_concat, Expr.Unwraps.propagates_eq h]
    · rw [← List.cons_append, ← List.cons_append, ← List.append_assoc, ← List.append_assoc,
        propagatesError_concat, propagatesError_concat]
      simp only [List.all_append, List.all_cons, Expr.Unwraps.isZeroValue_eq h]

/-- Whether a statement returns the error held by `name`. -/
def Stmt.returnsError (name : String) : Stmt → Bool
  | .ret _ results => propagatesError name results
  | _ => false

theorem returnsError_of_unwraps (h : Unwraps (.stmt s) (.stmt s')) (name : String) :
    s'.returnsError name = s.returnsError name := by
  cases h with
  | results pos h => exact propagatesError_of_unwraps h name
  | _ => rfl

/-- A guard has one statement, and it returns the error that is tested. -/
theorem Conditional.isGuard_iff_returnsError (c : Conditional) :
    c.isGuard = true ↔ ∃ name s, c.cond.notNil? = some name ∧ c.alternative = .absent ∧
      c.body.stmts = [s] ∧ s.returnsError name = true := by
  rw [isGuard_iff]
  constructor
  · rintro ⟨name, pos, results, hname, habsent, hbody, h⟩
    exact ⟨name, .ret pos results, hname, habsent, hbody, h⟩
  · rintro ⟨name, s, hname, habsent, hbody, h⟩
    cases s with
    | ret pos results => exact ⟨name, pos, results, hname, habsent, hbody, h⟩
    | _ => cases h

/-- A change to an element of the first block that keeps what it returns keeps the verdict. -/
theorem Conditional.isGuard_thenElement {pos lbrace : Position} {init : Option Stmt} {test : Expr}
    {alternative : Alternative} {before after : List Stmt}
    (h : ∀ name, s'.returnsError name = s.returnsError name) :
    (mk pos init test (.mk lbrace (before ++ s' :: after)) alternative).isGuard =
      (mk pos init test (.mk lbrace (before ++ s :: after)) alternative).isGuard := by
  have hsingle (t u : Stmt) : before ++ t :: after = [u] ↔ before = [] ∧ after = [] ∧ t = u := by
    cases before <;> simp [and_comm]
  rw [Bool.eq_iff_iff, isGuard_iff_returnsError, isGuard_iff_returnsError]
  simp only [Conditional.cond, Conditional.alternative, Conditional.body, Block.stmts, hsingle]
  constructor
  · rintro ⟨name, _, hname, habsent, ⟨hbefore, hafter, rfl⟩, hreturns⟩
    exact ⟨name, s, hname, habsent, ⟨hbefore, hafter, rfl⟩, h name ▸ hreturns⟩
  · rintro ⟨name, _, hname, habsent, ⟨hbefore, hafter, rfl⟩, hreturns⟩
    exact ⟨name, s', hname, habsent, ⟨hbefore, hafter, rfl⟩, (h name).symm ▸ hreturns⟩

theorem Conditional.isGuard_of_alternative {c : Conditional} (h : c.alternative ≠ .absent) :
    c.isGuard = false := by
  rw [Bool.eq_false_iff]
  intro hguard
  obtain ⟨-, -, -, -, habsent, -, -⟩ := (isGuard_iff c).mp hguard
  exact h habsent

/-- Rewriting keeps the verdict on a conditional; where the rewritten list is its first block, it is so by
assumption. -/
theorem isGuard_of_unwraps {c c' : Conditional} (h : Unwraps (.conditional c) (.conditional c')) :
    c'.isGuard = c.isGuard := by
  cases h with
  | init => rfl
  | test pos init body alternative h =>
    simp only [Conditional.isGuard, Conditional.cond, Expr.Unwraps.notNil?_eq h]
    rfl
  | thenBlock h hguard => exact hguard
  | thenElement _ _ _ _ _ before after h =>
    exact Conditional.isGuard_thenElement fun name ↦ returnsError_of_unwraps h name
  | elseIf =>
    rw [Conditional.isGuard_of_alternative, Conditional.isGuard_of_alternative]
    all_goals exact Alternative.noConfusion
  | elseBlock =>
    rw [Conditional.isGuard_of_alternative, Conditional.isGuard_of_alternative]
    all_goals exact Alternative.noConfusion

end Verdicts

/-! ## Sibling nodes -/

/-- The nodes that a fragment starts with. -/
def Fragment.nodes : Fragment → List Node
  | .expr e => [.expr e]
  | .exprs es => es.map .expr
  | .stmt s => [.ofStmt s]
  | .stmts list => list.map .ofStmt
  | .block b => Node.ofBlock b
  | .conditional c => [.cond c]

namespace Node

/-- Whether two nodes are the same to the metrics but for their parts. -/
structure Resembles (n n' : Node) : Prop where
  isGuard : n'.isGuard = n.isGuard
  isDecision : n'.isDecision = n.isDecision
  callee : Option.Rel Expr.MayUnwrap n.callee? n'.callee?

/-- One of some sibling nodes is unwrapped, or one below them. -/
inductive SiblingsUnwrap : List Node → List Node → Prop
  | block {b : Block} (h : b.stmts ≠ []) : SiblingsUnwrap [.stmt (.block b)] (ofBlock b)
  | label (pos : Position) (label : String) (s : Stmt) :
    SiblingsUnwrap [.stmt (.labeled pos label (some s))] [ofStmt s]
  | among (before after : List Node) {nodes nodes' : List Node} (h : SiblingsUnwrap nodes nodes') :
    SiblingsUnwrap (before ++ nodes ++ after) (before ++ nodes' ++ after)
  | inside {n n' : Node} (hn : n.Resembles n') {kind : PartKind} {nodes nodes' : List Node}
    (before after : List (PartKind × List Node)) (hgroups : n.groups = before ++ (kind, nodes) :: after)
    (hgroups' : n'.groups = before ++ (kind, nodes') :: after) (h : SiblingsUnwrap nodes nodes') :
    SiblingsUnwrap [n] [n']

theorem resembles_stmt {s s' : Stmt} (h : (stmt s').isDecision = (stmt s).isDecision) :
    (stmt s).Resembles (stmt s') :=
  ⟨rfl, h, .none⟩

theorem resembles_cond {c c' : Conditional} (h : Syntax.Unwraps (.conditional c) (.conditional c')) :
    (cond c).Resembles (cond c') :=
  ⟨isGuard_of_unwraps h, congrArg not (isGuard_of_unwraps h), .none⟩

theorem resembles_callee {e e' : Expr} (args : List Expr) (h : e.Unwraps e') :
    (expr (.call e args)).Resembles (expr (.call e' args)) := by
  refine ⟨rfl, rfl, ?_⟩
  cases h with
  | operand name h => exact .some (Or.inr (.operand name h))
  | _ => exact .none

theorem resembles_args (callee : Expr) (args args' : List Expr) :
    (expr (.call callee args)).Resembles (expr (.call callee args')) := by
  refine ⟨rfl, rfl, ?_⟩
  cases callee with
  | ident name => exact .some (Or.inl rfl)
  | selector operand name => exact .some (Or.inl rfl)
  | _ => exact .none

/-- A rewritten statement may stand anywhere in a list. -/
theorem SiblingsUnwrap.element (before after : List Stmt) {s s' : Stmt}
    (h : SiblingsUnwrap [ofStmt s] [ofStmt s']) :
    SiblingsUnwrap ((before ++ s :: after).map ofStmt) ((before ++ s' :: after).map ofStmt) := by
  simpa using h.among (before.map ofStmt) (after.map ofStmt)

/-- Splicing a block or dropping a label rewrites the siblings in a list. -/
theorem SiblingsUnwrap.of_unwrapsElement {stmts stmts' : List Stmt}
    (h : UnwrapsElement stmts stmts') :
    SiblingsUnwrap (stmts.map ofStmt) (stmts'.map ofStmt) := by
  cases h with
  | @block before after lbrace inner h =>
    have hblock : SiblingsUnwrap [ofStmt (.block (.mk lbrace inner))] (inner.map ofStmt) := .block h
    simpa using hblock.among (before.map ofStmt) (after.map ofStmt)
  | label before after pos label s =>
    have hlabel : SiblingsUnwrap [ofStmt (.labeled pos label (some s))] [ofStmt s] :=
      .label pos label s
    exact hlabel.element before after

end Node

open Node in
/-- Unwrapping in a fragment shows in its nodes. -/
theorem Unwraps.siblings {f f' : Fragment} (h : Unwraps f f') :
    SiblingsUnwrap f.nodes f'.nodes := by
  -- The lists name the groups of the node in front of the changed one and behind it.
  induction h with
  | here h => exact .of_unwrapsElement h
  | element before after _ ih => exact SiblingsUnwrap.element before after ih
  | braces _ _ ih => exact ih
  | listed before after _ ih =>
    simpa [Fragment.nodes] using ih.among (before.map Node.expr) (after.map Node.expr)
  | type elements _ ih => exact .inside ⟨rfl, rfl, .none⟩ [] _ rfl rfl ih
  | elements type _ ih => exact .inside ⟨rfl, rfl, .none⟩ [_] [] rfl rfl ih
  | callee args h ih => exact .inside (resembles_callee args h) [] _ rfl rfl ih
  | args callee _ ih => exact .inside (resembles_args callee _ _) [_] [] rfl rfl ih
  | operand _ _ ih => exact .inside ⟨rfl, rfl, .none⟩ [] [] rfl rfl ih
  | literal _ ih => exact .inside ⟨rfl, rfl, .none⟩ [] [] rfl rfl ih
  | left _ _ _ ih => exact .inside ⟨rfl, rfl, .none⟩ [] _ rfl rfl ih
  | right _ _ _ ih => exact .inside ⟨rfl, rfl, .none⟩ [_] [] rfl rfl ih
  | other _ ih => exact .inside ⟨rfl, rfl, .none⟩ [] [] rfl rfl ih
  | init pos test body alternative h ih =>
    exact .inside (resembles_cond (.init pos test body alternative h)) [] _ rfl rfl ih
  | test pos init body alternative h ih =>
    exact .inside (resembles_cond (.test pos init body alternative h)) [_] _ rfl rfl ih
  | thenBlock h hguard =>
    exact .inside (resembles_cond (.thenBlock h hguard)) [_, _] _ rfl rfl (.of_unwrapsElement h)
  | thenElement pos init test lbrace alternative before after h ih =>
    exact .inside (resembles_cond (.thenElement pos init test lbrace alternative before after h))
      [_, _] _ rfl rfl (SiblingsUnwrap.element before after ih)
  | elseIf pos init test body h ih =>
    exact .inside (resembles_cond (.elseIf pos init test body h)) [_, _, _] [] rfl rfl ih
  | elseBlock pos init test body h ih =>
    exact .inside (resembles_cond (.elseBlock pos init test body h)) [_, _, _] [] rfl rfl ih
  | cond _ ih => exact ih
  | header _ _ _ _ ih => exact .inside (resembles_stmt rfl) [] _ rfl rfl ih
  | loopBody _ _ _ _ ih => exact .inside (resembles_stmt rfl) [_] [] rfl rfl ih
  | switchInit _ _ _ _ _ ih => exact .inside (resembles_stmt rfl) [] _ rfl rfl ih
  | tag _ _ _ _ _ ih => exact .inside (resembles_stmt rfl) [_] _ rfl rfl ih
  | switchBody _ _ _ _ _ ih => exact .inside (resembles_stmt rfl) [_, _] [] rfl rfl ih
  | selectBody _ _ ih => exact .inside (resembles_stmt rfl) [] [] rfl rfl ih
  | caseList _ _ h ih =>
    exact .inside (resembles_stmt (congrArg not (isEmpty_of_unwraps h))) [] _ rfl rfl ih
  | caseBody _ _ _ ih => exact .inside (resembles_stmt rfl) [_] [] rfl rfl ih
  | operation _ _ _ ih => exact .inside (resembles_stmt rfl) [] _ rfl rfl ih
  | commBody _ _ _ ih => exact .inside (resembles_stmt rfl) [_] [] rfl rfl ih
  | bareBlock _ ih => exact .inside (resembles_stmt rfl) [] [] rfl rfl ih
  | labeled _ _ _ ih => exact .inside (resembles_stmt rfl) [] [] rfl rfl ih
  | results _ _ ih => exact .inside (resembles_stmt rfl) [] [] rfl rfl ih
  | simple _ _ _ ih => exact .inside (resembles_stmt rfl) [] [] rfl rfl ih

end GoComplexity.Syntax
