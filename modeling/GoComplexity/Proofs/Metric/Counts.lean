import GoComplexity.Metric.Cyclomatic
import GoComplexity.Proofs.Resolve.Growth
import GoComplexity.Proofs.Syntax.Occurrences

/-!
# Complexity and fan-out as counts

Both metrics count what occurs in the syntax tree of a body. Complexity counts the occurrences of
decisions that no error guard surrounds, one by one. Fan-out counts the symbols that calls refer to,
each symbol once, wherever the calls stand and also inside error guards. So complexity adds up over
two statement lists in a row, while the fan-out of the two lists may overlap.
-/

namespace GoComplexity

open Syntax

/-! ## Decisions -/

namespace Syntax

/-- The nodes that add a path. -/
inductive Node.Decides : Node → Prop
  | conditional {c : Conditional} (h : c.isGuard = false) : Decides (.cond c)
  | loop (pos : Position) (kind : LoopKind) (header : List Expr) (body : Block) :
    Decides (.stmt (.loop pos kind header body))
  | case (pos : Position) {list : List Expr} (h : list ≠ []) (body : List Stmt) :
    Decides (.stmt (.case pos list body))
  | comm (pos : Position) (operation : Stmt) (body : List Stmt) :
    Decides (.stmt (.comm pos (some operation) body))

theorem Node.decides_iff (n : Node) : n.Decides ↔ n.isDecision = true := by
  constructor
  · intro h
    cases h with
    | conditional h => simp [isDecision, h]
    | loop => rfl
    | case _ h => simpa [isDecision] using h
    | comm => rfl
  · intro h
    match n with
    | .cond c => exact .conditional (by simpa [isDecision] using h)
    | .stmt (.loop pos kind header body) => exact .loop pos kind header body
    | .stmt (.case pos list body) => exact .case pos (by simpa [isDecision] using h) body
    | .stmt (.comm pos (some operation) body) => exact .comm pos operation body

instance : DecidablePred Node.Decides := fun n ↦ decidable_of_iff _ n.decides_iff.symm

/-- Whether no error guard surrounds the occurrence. -/
def Occurrence.OutsideGuards (o : Occurrence) : Prop := ∀ n ∈ o.around, n.isGuard = false

instance (o : Occurrence) : Decidable o.OutsideGuards :=
  inferInstanceAs (Decidable (∀ n ∈ o.around, n.isGuard = false))

/-- An occurrence is outside of all guards exactly if a walk that stops at guards gets there. -/
theorem Occurrence.outsideGuards_iff (o : Occurrence) :
    o.OutsideGuards ↔ o.isOpen (fun n ↦ !n.isGuard) = true := by
  simp [OutsideGuards, isOpen]

theorem occurrencesStmts_append (around : List Node) (stmts stmts' : List Stmt) :
    occurrencesStmts around (stmts ++ stmts') =
      occurrencesStmts around stmts ++ occurrencesStmts around stmts' := by
  rw [← Node.flatMap_occurrences_stmts, List.map_append, List.flatMap_append,
    Node.flatMap_occurrences_stmts, Node.flatMap_occurrences_stmts]

end Syntax

/-- Complexity is one more than the number of decisions outside guards. -/
theorem complexity_eq_countP (b : Block) :
    b.complexity =
      1 + (b.occurrences []).countP fun o ↦ o.node.Decides ∧ o.OutsideGuards := by
  rw [Block.complexity, Block.trace_eq_occurrences, List.countP_map, List.countP_filter]
  congr 1
  apply List.countP_congr
  intro o _
  simp [Node.decides_iff, Occurrence.outsideGuards_iff]

/-- Complexity is one more than the number of occurrences of decisions outside error guards, so it adds
up over statement lists but for the one that both count. -/
theorem complexity_counts_decisions :
    (∀ b : Block, b.complexity =
      1 + (b.occurrences []).countP fun o ↦ o.node.Decides ∧ o.OutsideGuards) ∧
    ∀ (lbrace lbrace' lbrace'' : Position) (stmts stmts' : List Stmt),
      (Block.mk lbrace (stmts ++ stmts')).complexity =
        (Block.mk lbrace' stmts).complexity + (Block.mk lbrace'' stmts').complexity - 1 := by
  refine ⟨complexity_eq_countP, ?_⟩
  intro lbrace lbrace' lbrace'' stmts stmts'
  rw [complexity_eq_countP, complexity_eq_countP, complexity_eq_countP]
  simp only [Block.occurrences]
  rw [occurrencesStmts_append, List.countP_append]
  omega

/-! ## Call targets -/

namespace Syntax

/-- Whether a callee is a name or a selector. -/
inductive Expr.IsReference : Expr → Prop
  | ident (name : String) : IsReference (.ident name)
  | selector (operand : Expr) (name : String) : IsReference (.selector operand name)

/-- Whether a call of the given callee occurs in a body. -/
def Block.Calls (b : Block) (callee : Expr) : Prop :=
  ∃ o ∈ b.occurrences [], ∃ args, o.node = .expr (.call callee args)

theorem Node.callee?_eq_some_iff {n : Node} {callee : Expr} :
    n.callee? = some callee ↔ callee.IsReference ∧ ∃ args, n = .expr (.call callee args) := by
  constructor
  · intro h
    unfold callee? at h
    split at h
    · split at h
      · cases h
        exact ⟨.ident _, _, rfl⟩
      · cases h
        exact ⟨.selector _ _, _, rfl⟩
      · cases h
    · cases h
  · rintro ⟨⟨⟩, args, rfl⟩ <;> rfl

/-- The callees asked about are those of the calls in the body that are a name or a selector. -/
theorem Block.mem_callees_iff {b : Block} {callee : Expr} :
    callee ∈ b.callees ↔ b.Calls callee ∧ callee.IsReference := by
  rw [callees, nodes_eq_occurrences, List.filterMap_map, List.mem_filterMap]
  constructor
  · rintro ⟨o, ho, hcallee⟩
    obtain ⟨hreference, args, hnode⟩ := Node.callee?_eq_some_iff.mp hcallee
    exact ⟨⟨o, ho, args, hnode⟩, hreference⟩
  · rintro ⟨⟨o, ho, args, hnode⟩, hreference⟩
    exact ⟨o, ho, Node.callee?_eq_some_iff.mpr ⟨hreference, args, hnode⟩⟩

end Syntax

section Targets

variable {S : Type}

/-- Whether a callee is the object with the given symbol. The path of its package, if known, has a dot,
unlike those of the standard library. -/
def Callee.IsTarget (c : Callee S) (symbol : S) : Prop :=
  ∃ package, c = .object symbol package ∧ ∀ path ∈ package, '.' ∈ path.toList

/-- Builtins, conversions, unknown callees and the standard library have no symbol that counts. -/
theorem Callee.counted?_eq_some_iff {c : Callee S} {symbol : S} :
    c.counted? = some symbol ↔ c.IsTarget symbol := by
  match c with
  | .unresolved | .builtin | .typeName => simp [counted?, IsTarget]
  | .object s none => simp [counted?, IsTarget]
  | .object s (some path) =>
    by_cases hdot : '.' ∈ path.toList <;> simp [counted?, IsTarget, ImportPath.isStandard, hdot]

namespace Syntax.Block

/-- The callees of a body that refer to a target. -/
def targetCallees (b : Block) (resolve : Expr → Callee S) : Set Expr :=
  {callee | b.Calls callee ∧ callee.IsReference ∧ ∃ symbol, (resolve callee).IsTarget symbol}

/-- The symbols of the targets that a body calls. -/
def targets (b : Block) (resolve : Expr → Callee S) : Set S :=
  {symbol | ∃ callee, b.Calls callee ∧ callee.IsReference ∧ (resolve callee).IsTarget symbol}

/-- The targets of a body depend on its target callees only. -/
theorem mem_targets_iff {b : Block} {resolve : Expr → Callee S} {symbol : S} :
    symbol ∈ b.targets resolve ↔
      ∃ callee ∈ b.targetCallees resolve, (resolve callee).IsTarget symbol := by
  constructor
  · rintro ⟨callee, hcalls, hreference, htarget⟩
    exact ⟨callee, ⟨hcalls, hreference, symbol, htarget⟩, htarget⟩
  · rintro ⟨callee, ⟨hcalls, hreference, -⟩, htarget⟩
    exact ⟨callee, hcalls, hreference, htarget⟩

/-- The targets of statements put together are those of either half. -/
theorem targets_append (resolve : Expr → Callee S) (lbrace lbrace' lbrace'' : Position)
    (stmts stmts' : List Stmt) :
    (Block.mk lbrace (stmts ++ stmts')).targets resolve =
      (Block.mk lbrace' stmts).targets resolve ∪ (Block.mk lbrace'' stmts').targets resolve := by
  ext symbol
  simp only [targets, Calls, Block.occurrences, occurrencesStmts_append, List.mem_append,
    Set.mem_ofPred_eq, Set.mem_union, or_and_right, exists_or]

/-- Fan-out is the size of the set of targets. -/
theorem encard_targets [DecidableEq S] (b : Block) (resolve : Expr → Callee S) :
    (b.targets resolve).encard = b.fanOut resolve := by
  rw [fanOut_eq_card, ← Set.encard_coe_eq_coe_finsetCard]
  congr 1
  ext symbol
  simp only [targets, Set.mem_ofPred_eq, Finset.mem_coe, List.mem_toFinset, List.mem_filterMap,
    mem_callees_iff, Callee.counted?_eq_some_iff, and_assoc]

theorem fanOut_le_of_targets_subset [DecidableEq S] {b b' : Block} {resolve : Expr → Callee S}
    (h : b.targets resolve ⊆ b'.targets resolve) : b.fanOut resolve ≤ b'.fanOut resolve := by
  have hle := Set.encard_le_encard h
  rw [encard_targets, encard_targets] at hle
  exact ENat.natCast_le_natCast.mp hle

theorem fanOut_le_add_of_targets_subset [DecidableEq S] {b b' b'' : Block}
    {resolve : Expr → Callee S} (h : b.targets resolve ⊆ b'.targets resolve ∪ b''.targets resolve) :
    b.fanOut resolve ≤ b'.fanOut resolve + b''.fanOut resolve := by
  have hle : (b.targets resolve).encard ≤
      (b'.targets resolve).encard + (b''.targets resolve).encard :=
    le_trans (Set.encard_le_encard h) (Set.encard_union_le _ _)
  rw [encard_targets, encard_targets, encard_targets, ← ENat.natCast_add] at hle
  exact ENat.natCast_le_natCast.mp hle

theorem fanOut_eq_of_targetCallees_eq [DecidableEq S] {b b' : Block} {resolve : Expr → Callee S}
    (h : b.targetCallees resolve = b'.targetCallees resolve) :
    b.fanOut resolve = b'.fanOut resolve := by
  have htargets : b.targets resolve = b'.targets resolve := by
    ext symbol
    rw [mem_targets_iff, mem_targets_iff, h]
  apply le_antisymm
  · exact fanOut_le_of_targets_subset htargets.subset
  · exact fanOut_le_of_targets_subset htargets.superset

end Syntax.Block

/-- Fan-out is the number of target symbols among the callees of all calls of a body. It depends on the
target callees only, and for two statement lists in a row it lies between the greater of the two
fan-outs and their sum. -/
theorem fanOut_counts_targets [DecidableEq S] (resolve : Expr → Callee S) :
    (∀ b : Block, (b.targets resolve).encard = b.fanOut resolve) ∧
    (∀ b b' : Block, b.targetCallees resolve = b'.targetCallees resolve →
      b.fanOut resolve = b'.fanOut resolve) ∧
    ∀ (lbrace lbrace' lbrace'' : Position) (stmts stmts' : List Stmt),
      max ((Block.mk lbrace' stmts).fanOut resolve) ((Block.mk lbrace'' stmts').fanOut resolve) ≤
        (Block.mk lbrace (stmts ++ stmts')).fanOut resolve ∧
      (Block.mk lbrace (stmts ++ stmts')).fanOut resolve ≤
        (Block.mk lbrace' stmts).fanOut resolve + (Block.mk lbrace'' stmts').fanOut resolve := by
  refine ⟨fun b ↦ b.encard_targets resolve, fun b b' ↦ Block.fanOut_eq_of_targetCallees_eq, ?_⟩
  intro lbrace lbrace' lbrace'' stmts stmts'
  have hunion := Block.targets_append resolve lbrace lbrace' lbrace'' stmts stmts'
  constructor
  · apply Nat.max_le.mpr
    constructor
    · apply Block.fanOut_le_of_targets_subset
      rw [hunion]
      exact Set.subset_union_left
    · apply Block.fanOut_le_of_targets_subset
      rw [hunion]
      exact Set.subset_union_right
  · exact Block.fanOut_le_add_of_targets_subset hunion.subset

end Targets

/-- Takes every callee for an object of its name: in no package, in `fmt`, or in another package. -/
def resolveByName : Expr → Callee String
  | .ident "len" => .builtin
  | .ident name => .object name none
  | .selector (.ident "fmt") name => .object name (some "fmt")
  | .selector _ name => .object name (some "example.com/ext")
  | _ => .unresolved

/-- Calls in an error guard, in a function literal among the arguments, and of the standard library. -/
def nestedCalls : Block :=
  .mk ⟨1, 10, 9⟩
    [.cond (.mk ⟨2, 2, 12⟩ none (.binary "!=" (.ident "err") (.ident "nil"))
       (.mk ⟨2, 16, 26⟩ [.ret ⟨2, 18, 28⟩ [.call (.ident "wrap") [.ident "err"]]]) .absent),
     .simple ⟨3, 2, 47⟩ .expression [.call (.ident "run") [.funcLit (.mk ⟨3, 13, 58⟩
       [.simple ⟨3, 15, 60⟩ .expression
         [.call (.selector (.ident "ext") "Send") [.call (.ident "len") [.ident "x"]]]])]],
     .simple ⟨4, 2, 90⟩ .expression [.call (.selector (.ident "fmt") "Println") []]]

/-- The same targets one after the other, one of them twice. -/
def plainCalls : Block :=
  .mk ⟨1, 10, 9⟩ (["run", "wrap", "run"].map fun name ↦
    .simple ⟨2, 2, 12⟩ .expression
      [.call (.selector (.ident "ext") "Send") [.call (.ident name) []]])

/-- Calls in arguments and repeated calls lead to the same three targets as the calls one after the
other. -/
theorem fanOut_counts_targets_nestedCalls :
    nestedCalls.targetCallees resolveByName = plainCalls.targetCallees resolveByName ∧
      nestedCalls.fanOut resolveByName = plainCalls.fanOut resolveByName ∧
      (nestedCalls.targets resolveByName).encard = 3 := by
  have hnested : nestedCalls.callees = [.ident "wrap", .ident "run", .selector (.ident "ext") "Send",
      .ident "len", .selector (.ident "fmt") "Println"] := by
    rw [Block.callees, Block.nodes_eq_occurrences]
    rfl
  have hplain : plainCalls.callees = [.selector (.ident "ext") "Send", .ident "run",
      .selector (.ident "ext") "Send", .ident "wrap", .selector (.ident "ext") "Send",
      .ident "run"] := by
    rw [Block.callees, Block.nodes_eq_occurrences]
    rfl
  have hmem (b : Block) (callee : Expr) : callee ∈ b.targetCallees resolveByName ↔
      callee ∈ b.callees ∧ ∃ symbol, (resolveByName callee).counted? = some symbol := by
    simp only [Block.targetCallees, Set.mem_ofPred_eq, Block.mem_callees_iff,
      Callee.counted?_eq_some_iff, and_assoc]
  have hcallees :
      nestedCalls.targetCallees resolveByName = plainCalls.targetCallees resolveByName := by
    ext callee
    rw [hmem, hmem, hnested, hplain]
    apply and_congr_left
    rintro ⟨symbol, hsymbol⟩
    constructor
    · intro h
      simp only [List.mem_cons, List.not_mem_nil, or_false] at h
      rcases h with rfl | rfl | rfl | rfl | rfl
      · simp
      · simp
      · simp
      · cases hsymbol
      · cases hsymbol
    · intro h
      simp only [List.mem_cons, List.not_mem_nil, or_false] at h
      rcases h with rfl | rfl | rfl | rfl | rfl | rfl <;> simp
  obtain ⟨hcard, heq, -⟩ := fanOut_counts_targets resolveByName
  refine ⟨hcallees, heq _ _ hcallees, ?_⟩
  have hfanOut : nestedCalls.fanOut resolveByName = 3 := by
    rw [Block.fanOut, hnested]
    rfl
  rw [hcard, hfanOut]
  rfl

end GoComplexity
