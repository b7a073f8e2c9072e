import GoComplexity.Metric.Cyclomatic
import GoComplexity.Proofs.Syntax.Nodes

/-!
# Erasing error guards

Erasing replaces every error guard of a statement list or under a label by an empty statement at the
same position, at every depth and inside function literals. Nothing that decides whether another
conditional is a guard changes. The parts of an erased node are those of the node, erased.
-/

namespace GoComplexity

namespace Syntax

/-! ## The erased body -/

def Stmt.isGuard : Stmt → Bool
  | .cond c => c.isGuard
  | _ => false

/-- An empty statement in the place of an error guard, and `kept` in the place of any other one. -/
def Stmt.unlessGuard (s kept : Stmt) : Stmt :=
  if s.isGuard then .simple s.pos .empty [] else kept

mutual

def Expr.eraseGuards : Expr → Expr
  | .ident name => .ident name
  | .lit kind text => .lit kind text
  | .composite type elements => .composite (eraseExpr? type) (eraseExprs elements)
  | .call callee args => .call callee.eraseGuards (eraseExprs args)
  | .selector operand name => .selector operand.eraseGuards name
  | .funcLit body => .funcLit body.eraseGuards
  | .binary op left right => .binary op left.eraseGuards right.eraseGuards
  | .other parts => .other (eraseExprs parts)

def eraseExpr? : Option Expr → Option Expr
  | none => none
  | some e => some e.eraseGuards

def eraseExprs : List Expr → List Expr
  | [] => []
  | e :: rest => e.eraseGuards :: eraseExprs rest

def Block.eraseGuards : Block → Block
  | .mk lbrace stmts => .mk lbrace (eraseStmts stmts)

/-- Erases below a conditional, which itself stays. -/
def Conditional.eraseGuards : Conditional → Conditional
  | .mk pos init cond body alternative =>
    .mk pos (eraseStmt? init) cond.eraseGuards body.eraseGuards alternative.eraseGuards

def Alternative.eraseGuards : Alternative → Alternative
  | .absent => .absent
  | .elseIf next => .elseIf next.eraseGuards
  | .elseBlock body => .elseBlock body.eraseGuards

/-- Erases below a statement, which itself stays. -/
def Stmt.eraseGuards : Stmt → Stmt
  | .cond c => .cond c.eraseGuards
  | .loop pos kind header body => .loop pos kind (eraseExprs header) body.eraseGuards
  | .switch pos kind init tag body =>
    .switch pos kind (eraseStmt? init) (eraseExpr? tag) body.eraseGuards
  | .select pos body => .select pos body.eraseGuards
  | .case pos list body => .case pos (eraseExprs list) (eraseStmts body)
  | .comm pos operation body => .comm pos (eraseStmt? operation) (eraseStmts body)
  | .block b => .block b.eraseGuards
  | .labeled pos label inner => .labeled pos label (eraseLabeled? inner)
  | .ret pos results => .ret pos (eraseExprs results)
  | .simple pos kind exprs => .simple pos kind (eraseExprs exprs)

def eraseStmt? : Option Stmt → Option Stmt
  | none => none
  | some s => some s.eraseGuards

def eraseLabeled? : Option Stmt → Option Stmt
  | none => none
  | some s => some (s.unlessGuard s.eraseGuards)

def eraseStmts : List Stmt → List Stmt
  | [] => []
  | s :: rest => s.unlessGuard s.eraseGuards :: eraseStmts rest

end

/-- A statement of a list or under a label after erasing. -/
def Stmt.eraseElement (s : Stmt) : Stmt := s.unlessGuard s.eraseGuards

@[simp]
theorem eraseExpr?_eq_map (e : Option Expr) : eraseExpr? e = e.map Expr.eraseGuards := by
  cases e <;> rfl

@[simp]
theorem eraseExprs_eq_map (es : List Expr) : eraseExprs es = es.map Expr.eraseGuards := by
  induction es with
  | nil => rfl
  | cons e rest ih => rw [eraseExprs, ih, List.map_cons]

@[simp]
theorem eraseStmt?_eq_map (s : Option Stmt) : eraseStmt? s = s.map Stmt.eraseGuards := by
  cases s <;> rfl

@[simp]
theorem eraseLabeled?_eq_map (s : Option Stmt) : eraseLabeled? s = s.map Stmt.eraseElement := by
  cases s <;> rfl

@[simp]
theorem eraseStmts_eq_map (stmts : List Stmt) : eraseStmts stmts = stmts.map Stmt.eraseElement := by
  induction stmts with
  | nil => rfl
  | cons s rest ih => rw [eraseStmts, ih, List.map_cons]; rfl

/-- A guard in a list leaves an empty statement where it stood. -/
theorem Stmt.eraseElement_of_isGuard {s : Stmt} (h : s.isGuard = true) :
    s.eraseElement = .simple s.pos .empty [] :=
  if_pos h

theorem Stmt.eraseElement_of_not_isGuard {s : Stmt} (h : ¬ s.isGuard = true) :
    s.eraseElement = s.eraseGuards :=
  if_neg h

/-! ## Verdicts -/

@[simp]
theorem Expr.ident?_eraseGuards (e : Expr) : e.eraseGuards.ident? = e.ident? := by
  cases e <;> rfl

@[simp]
theorem Expr.notNil?_eraseGuards (e : Expr) : e.eraseGuards.notNil? = e.notNil? := by
  cases e <;> simp [Expr.eraseGuards, Expr.notNil?]

/-- Erasing changes function literals only, and those are no zero values. -/
@[simp]
theorem Expr.isZeroValue_eraseGuards (e : Expr) : e.eraseGuards.isZeroValue = e.isZeroValue := by
  cases e <;> simp [Expr.eraseGuards, Expr.isZeroValue]

@[simp]
theorem Expr.propagates_eraseGuards (name : String) (e : Expr) :
    e.eraseGuards.propagates name = e.propagates name := by
  cases e <;> rfl

end Syntax

open Syntax

/-- What a return propagates is read off names and calls, which erasing keeps. -/
theorem propagatesError_map_eraseGuards (name : String) (results : List Expr) :
    propagatesError name (results.map Expr.eraseGuards) = propagatesError name results := by
  unfold propagatesError
  rw [List.getLast?_map, ← List.map_dropLast, List.all_map]
  cases results.getLast? with
  | none => rfl
  | some last =>
    simp only [Option.map_some, Expr.propagates_eraseGuards]
    congr 2
    funext e
    exact e.isZeroValue_eraseGuards

namespace Syntax

/-- A guard tests a name against `nil` and does nothing else than return, without an alternative. -/
theorem Conditional.isGuard_iff (c : Conditional) :
    c.isGuard = true ↔ ∃ name pos results, c.cond.notNil? = some name ∧ c.alternative = .absent ∧
      c.body.stmts = [.ret pos results] ∧ propagatesError name results = true := by
  unfold Conditional.isGuard
  constructor
  · intro h
    split at h
    next name pos results hname halternative hbody =>
      exact ⟨name, pos, results, hname, halternative, hbody, h⟩
    next => cases h
  · rintro ⟨name, pos, results, hname, halternative, hbody, h⟩
    rw [hname, halternative, hbody]
    exact h

/-- Erasing neither makes returns nor takes them away. -/
theorem Stmt.eraseElement_eq_ret_iff (s : Stmt) (pos : Position) (results : List Expr) :
    s.eraseElement = .ret pos results ↔
      ∃ results₀, s = .ret pos results₀ ∧ results = results₀.map Expr.eraseGuards := by
  unfold Stmt.eraseElement Stmt.unlessGuard
  cases s with
  | cond c => split_ifs <;> simp [Stmt.eraseGuards]
  | ret pos₀ results₀ =>
    simp only [Stmt.isGuard, Bool.false_eq_true, if_false, Stmt.eraseGuards, eraseExprs_eq_map,
      Stmt.ret.injEq]
    constructor
    · rintro ⟨rfl, rfl⟩
      exact ⟨results₀, ⟨rfl, rfl⟩, rfl⟩
    · rintro ⟨_, ⟨rfl, rfl⟩, rfl⟩
      exact ⟨rfl, rfl⟩
  | _ => simp [Stmt.isGuard, Stmt.eraseGuards]

/-- Erasing below a conditional does not change whether it is an error guard. -/
theorem Conditional.isGuard_eraseGuards (c : Conditional) : c.eraseGuards.isGuard = c.isGuard := by
  obtain ⟨pos, init, cond, ⟨lbrace, stmts⟩, alternative⟩ := c
  rw [Bool.eq_iff_iff, Conditional.isGuard_iff, Conditional.isGuard_iff]
  simp only [Conditional.eraseGuards, Conditional.cond, Conditional.alternative, Conditional.body,
    Block.eraseGuards, Block.stmts, Expr.notNil?_eraseGuards, eraseStmts_eq_map,
    List.map_eq_singleton_iff, Stmt.eraseElement_eq_ret_iff]
  have halternative : alternative.eraseGuards = .absent ↔ alternative = .absent := by
    cases alternative <;> simp [Alternative.eraseGuards]
  constructor
  · rintro ⟨name, _, _, hname, habsent, ⟨s, rfl, results, rfl, rfl⟩, h⟩
    rw [propagatesError_map_eraseGuards] at h
    exact ⟨name, _, results, hname, halternative.mp habsent, rfl, h⟩
  · rintro ⟨name, _, results, hname, habsent, rfl, h⟩
    rw [← propagatesError_map_eraseGuards] at h
    exact ⟨name, _, _, hname, halternative.mpr habsent, ⟨_, rfl, results, rfl, rfl⟩, h⟩

/-! ## The nodes of the erased body -/

namespace Node

/-- Erases below a node, which itself stays. -/
def eraseGuards : Node → Node
  | .cond c => .cond c.eraseGuards
  | .stmt s => .stmt s.eraseGuards
  | .expr e => .expr e.eraseGuards

/-- A part of a node, and whether it stands in a statement list or under a label. -/
abbrev Slot := Bool × Node

def elements (stmts : List Stmt) : List Slot := stmts.map fun s ↦ (true, ofStmt s)

def fixedStmt (s : Option Stmt) : List Slot := s.toList.map fun s ↦ (false, ofStmt s)

def fixedExprs (es : List Expr) : List Slot := es.map fun e ↦ (false, .expr e)

def slotsOfAlternative : Alternative → List Slot
  | .absent => []
  | .elseIf next => [(false, .cond next)]
  | .elseBlock body => elements body.stmts

/-- The parts of a node, each with whether a guard there is erased. -/
def slots : Node → List Slot
  | .cond (.mk _ init test body alternative) =>
    fixedStmt init ++ (false, .expr test) :: elements body.stmts ++ slotsOfAlternative alternative
  | .stmt s => match s with
    | .cond c => [(false, .cond c)]
    | .loop _ _ header body => fixedExprs header ++ elements body.stmts
    | .switch _ _ init tag body =>
      fixedStmt init ++ fixedExprs tag.toList ++ elements body.stmts
    | .select _ body => elements body.stmts
    | .case _ list body => fixedExprs list ++ elements body
    | .comm _ operation body => fixedStmt operation ++ elements body
    | .block b => elements b.stmts
    | .labeled _ _ inner => elements inner.toList
    | .ret _ results => fixedExprs results
    | .simple _ _ exprs => fixedExprs exprs
  | .expr e => match e with
    | .ident _ => []
    | .lit _ _ => []
    | .composite type elements => fixedExprs type.toList ++ fixedExprs elements
    | .call callee args => (false, .expr callee) :: fixedExprs args
    | .selector operand _ => [(false, .expr operand)]
    | .funcLit body => elements body.stmts
    | .binary _ left right => [(false, .expr left), (false, .expr right)]
    | .other parts => fixedExprs parts

/-- Whether erasing replaces the part. -/
def isErased (slot : Slot) : Bool := slot.1 && slot.2.isGuard

/-- The part after erasing. -/
def eraseSlot : Slot → Node
  | (true, .cond c) => ofStmt (Stmt.cond c).eraseElement
  | (_, n) => n.eraseGuards

@[simp]
theorem eraseSlot_fixed (n : Node) : eraseSlot (false, n) = n.eraseGuards := by
  cases n <;> rfl

theorem ofStmt_eraseGuards (s : Stmt) : ofStmt s.eraseGuards = (ofStmt s).eraseGuards := by
  cases s <;> rfl

/-- A statement of a list stands in an open slot: it is erased if it is a guard. -/
theorem ofStmt_eraseElement (s : Stmt) : ofStmt s.eraseElement = eraseSlot (true, ofStmt s) := by
  cases s <;> rfl

theorem map_eraseSlot_elements (stmts : List Stmt) :
    (elements stmts).map eraseSlot = (stmts.map Stmt.eraseElement).map ofStmt := by
  simp [elements, ofStmt_eraseElement]

theorem map_eraseSlot_fixedStmt (s : Option Stmt) :
    (fixedStmt s).map eraseSlot = (s.map Stmt.eraseGuards).toList.map ofStmt := by
  cases s <;> simp [fixedStmt, ofStmt_eraseGuards]

theorem map_eraseSlot_fixedExprs (es : List Expr) :
    (fixedExprs es).map eraseSlot = (es.map Expr.eraseGuards).map expr := by
  simp [fixedExprs, eraseGuards]

/-- Erasing a block works on the slots of its statements one by one. -/
theorem ofBlock_eraseGuards (b : Block) :
    ofBlock b.eraseGuards = (elements b.stmts).map eraseSlot := by
  obtain ⟨lbrace, stmts⟩ := b
  rw [map_eraseSlot_elements, ofBlock, Block.eraseGuards, eraseStmts_eq_map]
  rfl

theorem ofAlternative_eraseGuards (a : Alternative) :
    ofAlternative a.eraseGuards = (slotsOfAlternative a).map eraseSlot := by
  cases a with
  | absent => rfl
  | elseIf next => rfl
  | elseBlock body => exact ofBlock_eraseGuards body

/-- The parts of an erased node are its parts, erased. -/
theorem children_eraseGuards (n : Node) : n.eraseGuards.children = n.slots.map eraseSlot := by
  match n with
  | .cond (.mk ..) =>
    simp [eraseGuards, Conditional.eraseGuards, children, slots, map_eraseSlot_fixedStmt,
      ofBlock_eraseGuards, ofAlternative_eraseGuards]
  | .stmt s =>
    cases s <;> simp [eraseGuards, Stmt.eraseGuards, children, slots, map_eraseSlot_fixedStmt,
      map_eraseSlot_fixedExprs, map_eraseSlot_elements, ofBlock_eraseGuards, Option.toList_map]
  | .expr e =>
    cases e <;> simp [eraseGuards, Expr.eraseGuards, children, slots, map_eraseSlot_fixedExprs,
      ofBlock_eraseGuards, Option.toList_map]

theorem map_snd_slots (n : Node) : n.slots.map Prod.snd = n.children := by
  have halternative (a : Alternative) : (slotsOfAlternative a).map Prod.snd = ofAlternative a := by
    cases a <;> simp [slotsOfAlternative, ofAlternative, elements, ofBlock, Function.comp_def]
  cases n with
  | cond c =>
    obtain ⟨pos, init, test, body, alternative⟩ := c
    simp [slots, children, fixedStmt, elements, ofBlock, halternative, Function.comp_def]
  | stmt s =>
    cases s <;>
      simp [slots, children, fixedStmt, fixedExprs, elements, ofBlock, Function.comp_def]
  | expr e =>
    cases e <;> simp [slots, children, fixedExprs, elements, ofBlock, Function.comp_def]

theorem snd_mem_children {n : Node} {slot : Slot} (h : slot ∈ n.slots) : slot.2 ∈ n.children := by
  rw [← map_snd_slots]
  exact List.mem_map_of_mem h

/-- The verdict on a conditional is not changed by what is erased inside of it. -/
theorem isGuard_eraseGuards (n : Node) : n.eraseGuards.isGuard = n.isGuard := by
  cases n with
  | cond c => exact c.isGuard_eraseGuards
  | stmt s => rfl
  | expr e => rfl

/-- What counts as a decision stays one. -/
theorem isDecision_eraseGuards (n : Node) : n.eraseGuards.isDecision = n.isDecision := by
  cases n with
  | cond c => exact congrArg not c.isGuard_eraseGuards
  | stmt s => cases s <;> simp [eraseGuards, Stmt.eraseGuards, isDecision]
  | expr e => rfl

theorem eraseSlot_of_isErased {slot : Slot} (h : isErased slot = true) :
    ∃ pos, eraseSlot slot = .stmt (.simple pos .empty []) := by
  obtain ⟨flag, n⟩ := slot
  obtain ⟨rfl, hguard⟩ := Bool.and_eq_true_iff.mp h
  cases n with
  | cond c =>
    have hstmt : (Stmt.cond c).isGuard = true := hguard
    exact ⟨c.pos, congrArg ofStmt (Stmt.eraseElement_of_isGuard hstmt)⟩
  | stmt s => cases hguard
  | expr e => cases hguard

theorem eraseSlot_of_not_isErased {slot : Slot} (h : ¬ isErased slot = true) :
    eraseSlot slot = slot.2.eraseGuards := by
  obtain ⟨flag, n⟩ := slot
  cases flag with
  | false => exact eraseSlot_fixed n
  | true =>
    cases n with
    | cond c =>
      have hstmt : ¬ (Stmt.cond c).isGuard = true := h
      exact congrArg ofStmt (Stmt.eraseElement_of_not_isGuard hstmt)
    | stmt s => rfl
    | expr e => rfl

end Node

end Syntax

end GoComplexity
