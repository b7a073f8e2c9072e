import GoComplexity.Proofs.Source.Files

/-!
# Signatures

A function declaration has a keyword, a name and perhaps type parameters in front of its parameter list, a
method declaration a keyword, a receiver list and a name. The outlines of the grammar do not count
children, so this is read off the runs of the two rules.
-/

namespace GoComplexity.Source

/-! ## What rules leave behind -/

namespace Rule

variable {σ : Type} {fuel : ℕ} {enter : σ → List Token → Option Reading} {acc acc' : List Tree}
  {toks toks' : List Token} {r : Reading}

/-- An option adds what its rule adds, or nothing. -/
theorem run_or_eq_of_run_opt {a : Rule σ} (h : (opt a).run fuel enter acc toks = some (acc', toks')) :
    a.run fuel enter acc toks = some (acc', toks') ∨ acc' = acc :=
  (run_or_run_of_run_alt h).imp_right fun hempty ↦ (Prod.mk.inj (Option.some.inj hempty)).1.symm

theorem exists_of_run_take {c : TokenClass}
    (h : (take c).run fuel enter acc toks = some (acc', toks')) :
    ∃ token, acc' = acc ++ [.leaf none token] := by
  obtain ⟨token, rest, -, -, heq⟩ := tokens_of_run_take h
  exact ⟨token, (Prod.mk.inj heq).1⟩

/-- A rule for a node collects one node of that kind. -/
theorem exists_of_run_node {k : Kind} {a : Rule σ}
    (h : (node k a).run fuel enter acc toks = some (acc', toks')) :
    ∃ trees, a.run fuel enter [] toks = some (trees, toks') ∧ acc' = acc ++ [.node none k trees] := by
  obtain ⟨_, hscope, rfl⟩ := exists_of_run_scope h
  obtain ⟨trees, _, ha, hwrap⟩ := exists_of_run_seq hscope
  obtain ⟨rfl, rfl⟩ := Prod.mk.inj (Option.some.inj hwrap)
  exact ⟨trees, ha, rfl⟩

/-- A rule for a child collects trees with its role, if they had none. -/
theorem exists_of_run_child {role : Role} {a : Rule σ}
    (h : (child role a).run fuel enter acc toks = some (acc', toks')) :
    ∃ trees, a.run fuel enter [] toks = some (trees, toks') ∧
      acc' = acc ++ trees.map (Tree.withRole role) := by
  obtain ⟨_, hscope, rfl⟩ := exists_of_run_scope h
  obtain ⟨trees, _, ha, hassign⟩ := exists_of_run_seq hscope
  obtain ⟨rfl, rfl⟩ := Prod.mk.inj (Option.some.inj hassign)
  exact ⟨trees, ha, rfl⟩

/-- A child that may follow on the same line is added behind what was collected. -/
theorem exists_of_run_opt_child {role : Role} {a : Rule σ}
    (h : (opt (seq sameLine (child role a))).run fuel enter acc toks = some (acc', toks')) :
    ∃ back, acc' = acc ++ back := by
  rcases run_or_eq_of_run_opt h with h | rfl
  · obtain ⟨_, _, hline, hchild⟩ := exists_of_run_seq h
    obtain ⟨trees, -, rfl⟩ := exists_of_run_child hchild
    obtain ⟨rfl, -⟩ := Prod.mk.inj (eq_of_run_sameLine hline)
    exact ⟨_, rfl⟩
  · exact ⟨[], (List.append_nil acc').symm⟩

theorem exists_of_run_keyword {text : String}
    (h : (keyword text).run fuel enter acc toks = some (acc', toks')) :
    ∃ token, acc' = acc ++ [.leaf (some .keyword) token] := by
  obtain ⟨_, htake, rfl⟩ := exists_of_run_child h
  obtain ⟨token, rfl⟩ := exists_of_run_take htake
  exact ⟨token, rfl⟩

end Rule

/-! ## Declarations -/

/-- What can stand in front of the parameter list of a declaration. -/
inductive IsFront : Kind → List Tree → Prop where
  | function (keyword name : Token) {types : List Tree}
      (htypes : ∀ c ∈ types, ∃ children, c = .node none .typeParameterList children) :
      IsFront .functionDecl (.leaf (some .keyword) keyword :: .leaf (some .name) name :: types)
  | method (keyword name : Token) (receivers : List Tree) :
      IsFront .methodDecl [.leaf (some .keyword) keyword, .node (some .receiver) .parameterList receivers,
        .leaf (some .name) name]

/-- Whether a tree is a declaration with the parameter list `list` behind `front`. -/
inductive Tree.IsDeclaration : Tree → List Tree → Tree → Prop where
  | intro {k : Kind} {front : List Tree} (hfront : IsFront k front) (params back : List Tree) :
      IsDeclaration
        (.node none k (front ++ .node (some .parameters) .parameterList params :: back)) front
        (.node (some .parameters) .parameterList params)

/-- Whether the functions among some trees have the form of declarations. -/
def FunctionsDeclare (trees : List Tree) : Prop :=
  ∀ t ∈ trees, t.isFunction = true → ∃ front list, t.IsDeclaration front list

theorem FunctionsDeclare.append {trees trees' : List Tree} (h : FunctionsDeclare trees)
    (h' : FunctionsDeclare trees') : FunctionsDeclare (trees ++ trees') :=
  fun t ht ↦ (List.mem_append.mp ht).elim (h t) (h' t)

theorem functionsDeclare_singleton {t : Tree}
    (h : t.isFunction = true → ∃ front list, t.IsDeclaration front list) : FunctionsDeclare [t] :=
  List.forall_mem_singleton.mpr h

namespace Grammar

open Rule

variable {fuel : ℕ} {acc trees : List Tree} {toks rest : List Token}

theorem exists_of_run_name {rival : Rival}
    (h : (child .name (name rival)).run fuel (parse rule fuel) acc toks = some (trees, rest)) :
    ∃ name, trees = acc ++ [.leaf (some .name) name] := by
  obtain ⟨_, htake, rfl⟩ := exists_of_run_child h
  obtain ⟨name, rfl⟩ := exists_of_run_take htake
  exact ⟨name, rfl⟩

/-- Parameters are read as one parameter list. -/
theorem exists_of_parse_parameters (h : parse rule fuel .parameters toks = some (trees, rest)) :
    ∃ params, trees = [.node none .parameterList params] := by
  cases fuel with
  | zero => cases h
  | succ fuel =>
    obtain ⟨params, -, rfl⟩ := exists_of_run_node h
    exact ⟨params, rfl⟩

theorem exists_of_run_parameters {role : Role}
    (h : (child role (call .parameters)).run fuel (parse rule fuel) acc toks = some (trees, rest)) :
    ∃ params, trees = acc ++ [.node (some role) .parameterList params] := by
  obtain ⟨_, hcall, rfl⟩ := exists_of_run_child h
  obtain ⟨_, hparse, rfl⟩ := exists_of_run_call hcall
  obtain ⟨params, rfl⟩ := exists_of_parse_parameters hparse
  exact ⟨params, rfl⟩

/-- Result and body are put behind what was collected. -/
theorem exists_of_run_resultAndBody
    (h : resultAndBody.run fuel (parse rule fuel) acc toks = some (trees, rest)) :
    ∃ back, trees = acc ++ back := by
  obtain ⟨_, _, hresult, hbody⟩ := exists_of_run_seq h
  obtain ⟨back, rfl⟩ := exists_of_run_opt_child hresult
  obtain ⟨back', rfl⟩ := exists_of_run_opt_child hbody
  exact ⟨back ++ back', List.append_assoc acc back back'⟩

/-- What the parameters and the rest of a declaration make of its front. -/
theorem isDeclaration_of_run {k : Kind} {front : List Tree} (hfront : IsFront k front)
    (h : (all [child .parameters (call .parameters), resultAndBody]).run fuel (parse rule fuel)
      front toks = some (trees, rest)) :
    ∃ front list, (Tree.node none k trees).IsDeclaration front list := by
  obtain ⟨_, _, hparams, h⟩ := exists_of_run_seq h
  obtain ⟨params, rfl⟩ := exists_of_run_parameters hparams
  obtain ⟨_, _, hback, hempty⟩ := exists_of_run_seq h
  obtain ⟨back, rfl⟩ := exists_of_run_resultAndBody hback
  obtain ⟨rfl, -⟩ := Prod.mk.inj (Option.some.inj hempty)
  rw [List.append_assoc, List.singleton_append]
  exact ⟨_, _, .intro hfront params back⟩

/-- The declaration of a function has a name, perhaps type parameters, and its parameters. -/
theorem functionsDeclare_of_run_functionDecl
    (h : functionDecl.run fuel (parse rule fuel) [] toks = some (trees, rest)) :
    FunctionsDeclare trees := by
  obtain ⟨_, hrun, rfl⟩ := exists_of_run_node h
  obtain ⟨_, _, hkeyword, hrun⟩ := exists_of_run_seq hrun
  obtain ⟨keyword, rfl⟩ := exists_of_run_keyword hkeyword
  obtain ⟨_, _, hname, hrun⟩ := exists_of_run_seq hrun
  obtain ⟨name, rfl⟩ := exists_of_run_name hname
  obtain ⟨front, _, htypes, hrun⟩ := exists_of_run_seq hrun
  have hfront : IsFront .functionDecl front := by
    rcases run_or_eq_of_run_opt htypes with htypes | rfl
    · obtain ⟨types, -, rfl⟩ := exists_of_run_node htypes
      exact .function keyword name (List.forall_mem_singleton.mpr ⟨types, rfl⟩)
    · exact .function keyword name (List.forall_mem_nil _)
  exact functionsDeclare_singleton fun _ ↦ isDeclaration_of_run hfront hrun

/-- The declaration of a method has its receiver in front. -/
theorem functionsDeclare_of_run_methodDecl
    (h : methodDecl.run fuel (parse rule fuel) [] toks = some (trees, rest)) :
    FunctionsDeclare trees := by
  obtain ⟨_, hrun, rfl⟩ := exists_of_run_node h
  obtain ⟨_, _, hkeyword, hrun⟩ := exists_of_run_seq hrun
  obtain ⟨keyword, rfl⟩ := exists_of_run_keyword hkeyword
  obtain ⟨_, _, hreceivers, hrun⟩ := exists_of_run_seq hrun
  obtain ⟨receivers, rfl⟩ := exists_of_run_parameters hreceivers
  obtain ⟨_, _, hname, hrun⟩ := exists_of_run_seq hrun
  obtain ⟨name, rfl⟩ := exists_of_run_name hname
  exact functionsDeclare_singleton fun _ ↦
    isDeclaration_of_run (.method keyword name receivers) hrun

/-- Statements declare no functions. -/
theorem functionsDeclare_of_parse_statement {first : Bool}
    (h : parse rule fuel (.statement first) toks = some (trees, rest)) : FunctionsDeclare trees := by
  intro t ht hfunction
  have hmolds : ∀ l ∈ nodeLooks statementKinds,
      l.mold ≠ .node .functionDecl ∧ l.mold ≠ .node .methodDecl := by
    decide
  obtain ⟨l, hl, -, hfits⟩ := (Schema.yields_of_parse accepts_rule h).describes.all t ht
  rcases Bool.or_eq_true_iff.mp hfunction with hhas | hhas
  · exact absurd (hfits.eq_node (Tree.hasKind_iff.mp hhas)) (hmolds l hl).1
  · exact absurd (hfits.eq_node (Tree.hasKind_iff.mp hhas)) (hmolds l hl).2

theorem functionsDeclare_of_parse_topLevel
    (h : parse rule fuel .topLevel toks = some (trees, rest)) : FunctionsDeclare trees := by
  have hnone {k : Kind} {children : List Tree} (hk : k ≠ .functionDecl ∧ k ≠ .methodDecl) :
      FunctionsDeclare [.node none k children] := by
    refine functionsDeclare_singleton fun hfunction ↦ ?_
    rcases Bool.or_eq_true_iff.mp hfunction with hhas | hhas
    · exact absurd (Option.some.inj (Tree.hasKind_iff.mp hhas)) hk.1
    · exact absurd (Option.some.inj (Tree.hasKind_iff.mp hhas)) hk.2
  cases fuel with
  | zero => cases h
  | succ fuel =>
    rcases run_or_run_of_run_alt h with h | h
    · obtain ⟨_, -, rfl⟩ := exists_of_run_node h
      exact hnone (by decide)
    rcases run_or_run_of_run_alt h with h | h
    · obtain ⟨_, -, rfl⟩ := exists_of_run_node h
      exact hnone (by decide)
    rcases run_or_run_of_run_alt h with h | h
    · exact functionsDeclare_of_run_functionDecl h
    rcases run_or_run_of_run_alt h with h | h
    · exact functionsDeclare_of_run_methodDecl h
    rcases run_or_run_of_run_alt h with h | h
    · obtain ⟨_, _, hbar, hcall⟩ := exists_of_run_seq h
      obtain ⟨rfl, rfl⟩ := Prod.mk.inj (eq_of_run_notAhead hbar)
      obtain ⟨_, hparse, rfl⟩ := exists_of_run_call hcall
      exact functionsDeclare_of_parse_statement hparse
    · cases h

/-- The functions of a file have the form of declarations. -/
theorem functionsDeclare_of_parseFile? (h : parseFile? toks = some trees) :
    FunctionsDeclare trees := by
  have hrun := run_file_of_parseFile? h
  rw [file, run, Option.some.injEq] at hrun
  rw [← show _ = trees from congrArg Prod.fst hrun]
  refine iterate_keeps (P := fun r ↦ FunctionsDeclare r.1) ?_ (32 * (toks.length + 1)) ([], toks)
    (List.forall_mem_nil _)
  intro r r' hr hstep
  obtain ⟨_, _, hcall, hends⟩ := exists_of_run_seq hstep
  obtain ⟨_, hparse, rfl⟩ := exists_of_run_call hcall
  have happend := hr.append (functionsDeclare_of_parse_topLevel hparse)
  rcases tokens_of_run_ends hends with rfl | ⟨tok, rest', -, -, rfl⟩
  · exact happend
  · exact happend.append (functionsDeclare_singleton fun hfunction ↦ by cases hfunction)

end Grammar

end GoComplexity.Source
