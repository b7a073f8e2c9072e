import GoComplexity.Proofs.Source.Outline
import GoComplexity.Source.Grammar
import Mathlib.Data.Fintype.Prod
import Mathlib.Data.Fintype.Sigma
import Mathlib.Data.Fintype.Sum
import Mathlib.Tactic.DeriveFintype

/-!
# The schema of the grammar

For the trees that the grammar of Go builds, the schema says with which token a node starts, which
children it must have, what children with a given role look like and for which nodes the roles come in
their usual order. That the rules of all symbols keep to the schema is computed once, so every tree of a
source file conforms to it.
-/

namespace GoComplexity.Source

namespace Grammar

/-! ## Looks of symbols -/

def leafLooks (classes : List TokenClass) : List Look := classes.map fun c ↦ ⟨none, .leaf c⟩

def nodeLooks (kinds : List Kind) : List Look := kinds.map fun k ↦ ⟨none, .node k⟩

def expressionLooks : List Look :=
  leafLooks [.literal, .constant, .maker, .name .expression] ++
    nodeLooks [.call, .composite, .conversion, .parenthesized, .funcLiteral, .selector,
      .typeAssertion, .slice, .index, .typeInstantiation, .unary, .binary]

def typeLooks : List Look :=
  leafLooks [.name .type, .name .expression] ++
    nodeLooks [.qualifiedType, .genericType, .pointerType, .sliceType, .arrayType, .mapType,
      .channelType, .structType, .interfaceType, .functionType, .negatedType, .parenthesizedType]

/-- The kinds of statements that can stand in a header. -/
def simpleKinds : List Kind :=
  [.incStmt, .decStmt, .sendStmt, .shortVarDecl, .assignment, .expressionStmt]

def statementKinds : List Kind :=
  [.varDecl, .constDecl, .typeDecl, .returnStmt, .goStmt, .deferStmt, .ifStmt, .forStmt,
    .expressionSwitch, .typeSwitch, .selectStmt, .fallthroughStmt, .breakStmt, .continueStmt,
    .gotoStmt, .block, .emptyStmt, .labeledStmt] ++ simpleKinds

def declarationKinds : List Kind := [.packageClause, .importDecl, .functionDecl, .methodDecl]

/-- One tree or more of the given looks. -/
def someOf (looks : List Look) : Outline := ⟨looks, looks, false, [none], true⟩

/-- What a symbol yields; where it stands makes no difference. -/
def symbolOutline : Symbol → Outline
  | .topLevel => someOf (nodeLooks (declarationKinds ++ statementKinds))
  | .statement _ => someOf (nodeLooks statementKinds)
  | .statements =>
    { someOf (nodeLooks statementKinds) with all := ⟨none, .mark⟩ :: nodeLooks statementKinds }
  | .block => someOf (nodeLooks [.block])
  | .ifStmt _ => someOf (nodeLooks [.ifStmt])
  | .simple _ _ => someOf (nodeLooks simpleKinds)
  | .expression _ | .binary _ _ | .unary _ | .primary _ | .operand _ => someOf expressionLooks
  | .literalValue => someOf (nodeLooks [.literalValue])
  | .arguments => someOf (nodeLooks [.argumentList])
  | .type _ | .simpleType _ => someOf typeLooks
  | .typeArguments _ => someOf (nodeLooks [.typeArguments])
  | .parameters => someOf (nodeLooks [.parameterList])

/-! ## Children of nodes -/

def keywordLook (text : String) : Look := ⟨some .keyword, .leaf (.keyword text)⟩

/-- What the first child of a node looks like. -/
def openers : Kind → Option (List Look)
  | .block => some [⟨none, .leaf (.mark openBrace)⟩]
  | .functionDecl | .methodDecl | .funcLiteral => some [keywordLook "func"]
  | .ifStmt => some [keywordLook "if"]
  | .forStmt => some [keywordLook "for"]
  | .expressionSwitch | .typeSwitch => some [keywordLook "switch"]
  | .selectStmt => some [keywordLook "select"]
  | .expressionCase | .typeCase | .communicationCase => some [keywordLook "case"]
  | .defaultCase => some [keywordLook "default"]
  | .labeledStmt => some [⟨some .label, .leaf (.name .expression)⟩]
  | .expressionList => some expressionLooks
  | _ => none

/-- The kinds of nodes that start with a keyword or brace. -/
def opened : List Kind :=
  [.block, .functionDecl, .methodDecl, .funcLiteral, .ifStmt, .forStmt, .expressionSwitch,
    .typeSwitch, .selectStmt, .expressionCase, .typeCase, .communicationCase, .defaultCase]

/-- The kinds of nodes whose children have their roles in the usual order. -/
def ordered : List Kind :=
  [.functionDecl, .methodDecl, .composite, .call, .conversion, .binary, .ifStmt, .forStmt,
    .expressionSwitch, .typeSwitch, .expressionCase, .typeCase, .defaultCase, .communicationCase]

/-- The roles that a node must have. -/
def needs : Kind → List Role
  | .expressionCase => [.value]
  | .typeCase => [.type]
  | .communicationCase => [.communication]
  | _ => []

/-- What children with a role look like. -/
def restrictions : Kind → List (Role × List Mold)
  | .functionDecl | .methodDecl => [(.body, [.node .block])]
  | .ifStmt | .expressionSwitch | .typeSwitch => [(.initializer, simpleKinds.map .node)]
  | .expressionCase => [(.value, [.node .expressionList])]
  | .communicationCase => [(.communication, [.node .sendStmt, .node .receiveStmt])]
  | .defaultCase => [(.communication, [])]
  | .selector => [(.member, [.leaf (.name .nothing)])]
  | .binary => [(.operator, [.mark])]
  | .labeledStmt => [(.label, [.leaf (.name .expression)])]
  | _ => []

/-- The kinds of clauses, which never have a role. -/
def clauseKinds : List Kind := [.expressionCase, .typeCase, .defaultCase, .communicationCase]

def admits (k : Kind) (o : Outline) : Bool :=
  !o.nullable && (openers k).all o.opensWith && (!ordered.contains k || o.sorted) &&
    (needs k).all (fun r ↦ o.must.contains (some r)) &&
    (restrictions k).all (fun (r, molds) ↦ o.limits r molds) &&
    o.all.all fun l ↦ l.role.isNone || !(clauseKinds.map Mold.node).contains l.mold

def schema : Schema Symbol := ⟨symbolOutline, admits⟩

/-! ## The rules keep to the schema -/

deriving instance Fintype for Site

deriving instance Fintype for ExprPlace

deriving instance Fintype for TypePlace

/-- Whether a rule keeps to the schema of a symbol and cuts no mark into one part. -/
def isSound (a : Rule Symbol) (s : Symbol) : Bool :=
  schema.accepts a (symbolOutline s) && a.isProper

/-- What holds of the rules of finitely many symbols holds of all: binary levels without operators are all
alike. -/
theorem forall_rule {P : Rule Symbol → Outline → Bool}
    (hplain : ∀ s ∈ [.topLevel, .statements, .block, .literalValue, .arguments, .parameters],
      P (rule s) (symbolOutline s) = true)
    (hfirst : ∀ b, ∀ s ∈ [.statement b, .ifStmt b, .typeArguments b],
      P (rule s) (symbolOutline s) = true)
    (hsimple : ∀ l r, P (rule (.simple l r)) (symbolOutline (.simple l r)) = true)
    (hexpression : ∀ p, ∀ s ∈ [.expression p, .unary p, .primary p, .operand p],
      P (rule s) (symbolOutline s) = true)
    (hbinary : ∀ (level : Fin 6) (p : ExprPlace),
      P (rule (.binary level p)) (symbolOutline (.binary level p)) = true)
    (htype : ∀ p, ∀ s ∈ [.type p, .simpleType p], P (rule s) (symbolOutline s) = true)
    (s : Symbol) : P (rule s) (symbolOutline s) = true := by
  cases s with
  | topLevel | statements | block | literalValue | arguments | parameters =>
    exact hplain _ (by decide)
  | statement b | ifStmt b | typeArguments b => exact hfirst b _ (by simp)
  | simple l r => exact hsimple l r
  | expression p | unary p | primary p | operand p => exact hexpression p _ (by simp)
  | type p | simpleType p => exact htype p _ (by simp)
  | binary level p =>
    rcases Nat.lt_or_ge level 5 with hlt | hge
    · exact hbinary ⟨level, Nat.lt_succ_of_lt hlt⟩ p
    · have hrule : rule (.binary level p) = rule (.binary 5 p) := by
        rw [rule, rule, binary, binary, if_neg (Nat.not_lt.mpr hge), if_neg (Nat.lt_irrefl 5)]
      rw [hrule]
      exact hbinary 5 p

/-- The rule of each symbol keeps to the schema. -/
theorem isSound_rule (s : Symbol) : isSound (rule s) s = true :=
  forall_rule (P := fun a o ↦ schema.accepts a o && a.isProper) (by decide +kernel)
    (by decide +kernel) (by decide +kernel) (by decide +kernel) (by decide +kernel)
    (by decide +kernel) s

/-- Each node that a rule of the grammar builds is admitted by the schema. -/
theorem accepts_rule (s : Symbol) : schema.accepts (rule s) (schema.symbol s) = true :=
  (Bool.and_eq_true_iff.mp (isSound_rule s)).1

/-- No rule of the grammar loses or repeats tokens. -/
theorem isProper_rule (s : Symbol) : (rule s).isProper = true :=
  (Bool.and_eq_true_iff.mp (isSound_rule s)).2

end Grammar

/-! ## Trees of a file -/

/-- A tree as the grammar builds it. -/
abbrev Tree.WellFormed (t : Tree) : Prop := t.Conforms Grammar.admits

theorem run_file_of_parseFile? {toks : List Token} {trees : List Tree}
    (h : parseFile? toks = some trees) :
    Grammar.file.run (32 * (toks.length + 1)) (parse Grammar.rule (32 * (toks.length + 1))) [] toks =
      some (trees, []) := by
  rw [parseFile?] at h
  split at h
  · rename_i hrun
    rw [← Option.some.inj h]
    exact hrun
  · cases h

/-- If the rules keep to a schema, the trees of a file conform to it. -/
theorem Schema.conforms_of_parseFile? {S : Schema Symbol}
    (haccepts : ∀ s, S.accepts (Grammar.rule s) (S.symbol s) = true)
    (hpasses : Grammar.file.passes S .empty = true) {toks : List Token} {trees : List Tree}
    (h : parseFile? toks = some trees) : ∀ t ∈ trees, t.Conforms S.admits := by
  obtain ⟨_, _, hyields⟩ := keepsTo_of_enter (fun _ _ _ hparse ↦ yields_of_parse haccepts hparse) _
    hpasses yields_empty (run_file_of_parseFile? h)
  exact hyields.conforms

/-- The trees of a file are well-formed, and their leaves are the tokens of the file, up to marks that
were cut. -/
theorem parseFile?_spec {toks : List Token} {trees : List Tree} (h : parseFile? toks = some trees) :
    (∀ t ∈ trees, t.WellFormed) ∧ Refines toks (trees.flatMap Tree.tokens) := by
  have hpasses : Grammar.file.passes Grammar.schema .empty = true := by decide +kernel
  have hrefines := Rule.run_refines
    (fun _ _ _ hparse ↦ parse_refines Grammar.isProper_rule hparse) _ rfl (run_file_of_parseFile? h)
  exact ⟨Schema.conforms_of_parseFile? Grammar.accepts_rule hpasses h,
    by simpa [Reading.tokens] using hrefines⟩

namespace Tree.WellFormed

/-- What the schema says about the children of a node. -/
structure Content (k : Kind) (children : List Tree) : Prop where
  wellFormed : ∀ c ∈ children, c.WellFormed
  ne_nil : children ≠ []
  opens : ∀ looks ∈ Grammar.openers k, ∃ c rest, children = c :: rest ∧ ∃ l ∈ looks, l.Fits c
  inOrder : k ∈ Grammar.ordered → InOrder children
  needs : ∀ r ∈ Grammar.needs k, ∃ c ∈ children, c.role = some r
  fits : ∀ r molds, (r, molds) ∈ Grammar.restrictions k → ∀ c ∈ children, c.role = some r →
    ∃ m ∈ molds, m.Fits c
  role_of_clause : ∀ c ∈ children, ∀ k' ∈ Grammar.clauseKinds, c.kind? = some k' → c.role = none

theorem content {t : Tree} (h : t.WellFormed) {k : Kind} (hkind : t.kind? = some k) :
    Content k t.children := by
  cases h with
  | leaf => simp [kind?] at hkind
  | node role o hdescribes hadmits hchildren =>
    rw [kind?, Option.some.injEq] at hkind
    subst hkind
    simp only [Grammar.admits, Bool.and_eq_true, Bool.or_eq_true, Bool.not_eq_true',
      List.all_eq_true, Option.all_eq_true] at hadmits
    obtain ⟨⟨⟨⟨⟨hnullable, hopens⟩, hsorted⟩, hneeds⟩, hlimits⟩, hclauses⟩ := hadmits
    refine ⟨hchildren, hdescribes.nonempty hnullable, ?_, ?_, ?_, ?_, ?_⟩
    · intro looks hlooks
      exact hdescribes.exists_cons (hopens looks hlooks)
    · intro hordered
      refine hdescribes.sorted (hsorted.resolve_left fun hfalse ↦ ?_)
      exact absurd (List.contains_iff_mem.mpr hordered) (Bool.eq_false_iff.mp hfalse)
    · intro r hr
      exact hdescribes.must _ (List.contains_iff_mem.mp (hneeds r hr))
    · intro r molds hmolds c hc hrole
      exact hdescribes.fits_of_limits (hlimits (r, molds) hmolds) hc hrole
    · intro c hc k' hk' hkind
      obtain ⟨l, hl, hrole, hfits⟩ := hdescribes.all c hc
      have hlook := hclauses l hl
      have hmold : Mold.node k' ∈ Grammar.clauseKinds.map Mold.node := List.mem_map_of_mem hk'
      rw [hfits.eq_node hkind, List.contains_iff_mem.mpr hmold] at hlook
      exact hrole.trans (Option.isNone_iff_eq_none.mp (hlook.resolve_right (by decide)))

/-- A node that starts with a keyword or brace starts with a child that has no place among the roles. -/
theorem exists_opener {t : Tree} (h : t.WellFormed) {k : Kind} (hkind : t.kind? = some k)
    (hopened : k ∈ Grammar.opened) :
    ∃ c rest, t.children = c :: rest ∧ c.rank? = none := by
  have hranks : ∀ k ∈ Grammar.opened, ∃ looks ∈ Grammar.openers k, ∀ l ∈ looks, l.rank? = none := by
    decide +kernel
  obtain ⟨looks, hlooks, hrank⟩ := hranks k hopened
  obtain ⟨c, rest, hcons, l, hl, hfits⟩ := (h.content hkind).opens looks hlooks
  exact ⟨c, rest, hcons, hfits.rank?_eq_none (hrank l hl)⟩

theorem of_mem_children {t c : Tree} (h : t.WellFormed) (hc : c ∈ t.children) : c.WellFormed :=
  Conforms.of_mem_children h hc

/-- No node of the grammar is empty. -/
theorem tokens_ne_nil {t : Tree} (h : t.WellFormed) : t.tokens ≠ [] := by
  induction h with
  | leaf => simp [tokens]
  | node role o hdescribes hadmits hchildren ih =>
    have hcontent := content (.node role o hdescribes hadmits hchildren) rfl
    obtain ⟨c, rest, hcons⟩ := List.exists_cons_of_ne_nil hcontent.ne_nil
    rw [children] at hcons
    subst hcons
    rw [tokens_node, List.flatMap_cons]
    exact List.append_ne_nil_of_left_ne_nil (ih c List.mem_cons_self) _

end Tree.WellFormed

end GoComplexity.Source
