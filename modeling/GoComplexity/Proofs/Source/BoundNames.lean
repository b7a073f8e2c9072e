import GoComplexity.Proofs.Source.Places
import GoComplexity.Proofs.Source.Signatures
import GoComplexity.Resolve.Callee

/-!
# The names that a declaration binds

A declaration binds its receivers first and then its parameters. Only function literals in front of the
parameter list, in a receiver type or among the type parameters, come in between. Nothing is bound inside
type literals. So inside a function a named parameter is what a call of its name refers to, unless its
name was bound before.
-/

namespace GoComplexity

open Syntax
open scoped List

/-- The bindings of a group of parameters at a position; the blank identifier is no name. -/
def Syntax.ParamGroup.bindings (g : ParamGroup) (pos : Position) : List Binding :=
  (g.names.filter (· != "_")).map fun name ↦
    ⟨name, if g.variadic then "[]" ++ g.type else g.type, pos⟩

namespace Source

variable {source : ByteArray}

/-! ## Parts of a declaration -/

/-- The bindings of the parameters of a list. -/
def listBindings (source : ByteArray) (list : Tree) : List Binding :=
  (Lower.paramGroups source list).flatMap (·.bindings list.start)

/-- A parameter list binds the names of its groups, `_` apart. -/
theorem filter_paramBindings (list : Tree) :
    (Lower.paramBindings source list).filter (fun b ↦ b.name != "_") = listBindings source list := by
  simp only [Lower.paramBindings, listBindings, ParamGroup.bindings, List.filter_flatMap,
    List.filter_map, Function.comp_def]

theorem mem_bindings_iff {t : Tree} {b : Binding} :
    b ∈ Lower.bindings source t ↔ b ∈ Lower.allBindings source t ∧ b.name ≠ "_" := by
  rw [Lower.bindings, List.mem_filter, bne_iff_ne]

theorem bindings_leaf (role : Option Role) (token : Token) :
    Lower.bindings source (.leaf role token) = [] := by
  rw [Lower.bindings, Lower.allBindings]
  rfl

/-- A node binds its own names first and then those of its children, in order, unless it is a type that
keeps its names to itself. -/
theorem bindings_node {k : Kind} (hk : Lower.isTypeLiteral k = false) (role : Option Role)
    (children : List Tree) :
    Lower.bindings source (.node role k children) =
      (Lower.ownBindings source (.node role k children)).filter (fun b ↦ b.name != "_") ++
        children.flatMap (Lower.bindings source) := by
  rw [Lower.bindings, Lower.allBindings, if_neg (Bool.eq_false_iff.mp hk), List.filter_append,
    allBindingsOf_eq_flatMap, List.filter_flatMap]
  rfl

/-- The kinds of nodes that bind names. -/
def binders : List Kind :=
  [.parameterList, .varSpec, .shortVarDecl, .rangeClause, .receiveStmt, .typeSwitch]

/-- Only the kinds that bind names have bindings of their own. -/
theorem ownBindings_eq_nil {k : Kind} (hk : k ∉ binders) (role : Option Role) (children : List Tree) :
    Lower.ownBindings source (.node role k children) = [] := by
  unfold Lower.ownBindings
  split
  case h_7 => rfl
  all_goals
    rename_i hkind
    rw [Option.some.inj hkind] at hk
    exact absurd hk (by decide)

/-- The names of a parameter list come before what is bound in its types. -/
theorem bindings_parameterList (role : Option Role) (params : List Tree) :
    Lower.bindings source (.node role .parameterList params) =
      listBindings source (.node role .parameterList params) ++
        params.flatMap (Lower.bindings source) := by
  rw [bindings_node rfl, ← filter_paramBindings]
  rfl

/-- A type or expression binds names only in the function literals that lie open in it. -/
theorem exists_funcLiteral_of_mem_bindings {t : Tree} (ht : t.Conforms Grammar.nests)
    (hquiet : t.IsQuiet) {b : Binding} (hb : b ∈ Lower.bindings source t) :
    ∃ literal : Tree, literal.ExposedIn t ∧ literal.kind? = some .funcLiteral ∧
      b ∈ Lower.bindings source literal := by
  have hopen : ∀ k ∈ Grammar.quietKinds, Lower.isTypeLiteral k = false ∧ k ∉ binders := by decide
  have hliteral : ∀ k ∈ Grammar.literalKinds, k = .funcLiteral ∨ Lower.isTypeLiteral k = true := by
    decide
  induction ht with
  | leaf role token =>
    rw [bindings_leaf] at hb
    exact absurd hb List.not_mem_nil
  | @node role k children o hdescribes hadmits hchildren ih =>
    rcases hquiet k rfl with hk | hk
    · obtain ⟨hopen, hbinder⟩ := hopen k hk
      rw [bindings_node hopen, ownBindings_eq_nil hbinder, List.filter_nil, List.nil_append] at hb
      obtain ⟨c, hc, hb⟩ := List.mem_flatMap.mp hb
      have hnode : (Tree.node role k children).Conforms Grammar.nests :=
        .node role o hdescribes hadmits hchildren
      obtain ⟨literal, hin, hkind, hmem⟩ :=
        ih c hc (hnode.isQuiet_of_mem_children rfl (List.mem_cons_of_mem _ hk) hc) hb
      exact ⟨literal, .child rfl hopen hc hin, hkind, hmem⟩
    · rcases hliteral k hk with rfl | hk
      · exact ⟨_, .self, rfl, hb⟩
      · rw [mem_bindings_iff, Lower.allBindings, if_pos hk] at hb
        exact absurd hb.1 List.not_mem_nil

/-! ## Declarations -/

/-- The bindings of the receivers of a declaration. -/
def receiverBindings (source : ByteArray) (t : Tree) : List Binding :=
  (t.child? .receiver).toList.flatMap (listBindings source)

/-- Whether a name is bound in a function literal that lies open in one of some trees. -/
def BoundInLiteral (source : ByteArray) (trees : List Tree) (b : Binding) : Prop :=
  ∃ c ∈ trees, ∃ literal : Tree, literal.ExposedIn c ∧ literal.kind? = some .funcLiteral ∧
    b ∈ Lower.bindings source literal

/-- Of what stands in front of the parameters of a function only the keyword and the name have a role. -/
theorem find?_role_eq_none {types : List Tree}
    (htypes : ∀ c ∈ types, ∃ children, c = .node none .typeParameterList children)
    (keyword name : Token) {r : Role} (hkeyword : r ≠ .keyword) (hname : r ≠ .name) :
    (Tree.leaf (some .keyword) keyword :: .leaf (some .name) name :: types).find?
      (fun c ↦ c.role == some r) = none := by
  rw [List.find?_eq_none]
  intro c hc hrole
  have hrole : c.role = some r := beq_iff_eq.mp hrole
  rcases List.mem_cons.mp hc with rfl | hc
  · exact hkeyword (Option.some.inj hrole).symm
  rcases List.mem_cons.mp hc with rfl | hc
  · exact hname (Option.some.inj hrole).symm
  · obtain ⟨children, rfl⟩ := htypes c hc
    cases hrole

/-- What stands in front of a parameter list binds the receivers and then names of function literals. -/
theorem IsFront.exists_early (source : ByteArray) {k : Kind} {front : List Tree} (h : IsFront k front)
    (hfront : ∀ c ∈ front, c.Conforms Grammar.nests) :
    ∃ early, front.flatMap (Lower.bindings source) =
        (front.find? fun c ↦ c.role == some .receiver).toList.flatMap (listBindings source) ++ early ∧
      ∀ b ∈ early, BoundInLiteral source front b := by
  cases h with
  | @function keyword name types htypes =>
    refine ⟨types.flatMap (Lower.bindings source), ?_, fun b hb ↦ ?_⟩
    · rw [find?_role_eq_none htypes keyword name (by decide) (by decide)]
      simp [bindings_leaf]
    · obtain ⟨c, hc, hb⟩ := List.mem_flatMap.mp hb
      have hmem : c ∈ Tree.leaf (some .keyword) keyword :: .leaf (some .name) name :: types :=
        List.mem_cons_of_mem _ (List.mem_cons_of_mem _ hc)
      have hquiet : c.IsQuiet := by
        obtain ⟨children, rfl⟩ := htypes c hc
        rintro _ ⟨⟩
        exact Or.inl (by decide)
      exact ⟨c, hmem, exists_funcLiteral_of_mem_bindings (hfront c hmem) hquiet hb⟩
  | method keyword name receivers =>
    refine ⟨receivers.flatMap (Lower.bindings source), ?_, fun b hb ↦ ?_⟩
    · have hfind : [Tree.leaf (some .keyword) keyword, .node (some .receiver) .parameterList receivers,
          .leaf (some .name) name].find? (fun c ↦ c.role == some .receiver) =
            some (.node (some .receiver) .parameterList receivers) := rfl
      rw [hfind]
      simp [bindings_leaf, bindings_parameterList]
    · obtain ⟨c, hc, hb⟩ := List.mem_flatMap.mp hb
      have hmem : Tree.node (some .receiver) .parameterList receivers ∈
          [.leaf (some .keyword) keyword, .node (some .receiver) .parameterList receivers,
            .leaf (some .name) name] :=
        List.mem_cons_of_mem _ List.mem_cons_self
      have hlist := hfront _ hmem
      obtain ⟨literal, hin, hkind, hb⟩ := exists_funcLiteral_of_mem_bindings
        (hlist.of_mem_children hc) (hlist.isQuiet_of_mem_children rfl List.mem_cons_self hc) hb
      exact ⟨_, hmem, literal, .child rfl rfl hc hin, hkind, hb⟩

namespace Tree.IsDeclaration

variable {t list : Tree} {front : List Tree}

/-- The parameter list of a declaration is found by its role. -/
theorem child?_parameters (h : t.IsDeclaration front list) : t.child? .parameters = some list := by
  cases h with
  | intro hfront params back =>
    cases hfront with
    | function keyword name htypes =>
      rw [child?, children, List.find?_append,
        find?_role_eq_none htypes keyword name (by decide) (by decide)]
      rfl
    | method keyword name receivers => rfl

theorem child?_receiver (h : t.IsDeclaration front list) (ht : t.Conforms Grammar.nests) :
    t.child? .receiver = front.find? fun c ↦ c.role == some .receiver := by
  cases h with
  | intro hfront params back =>
    cases hfront with
    | function keyword name htypes =>
      have hnone := ht.child?_receiver_eq_none rfl
      rw [hnone]
      rw [child?, children, List.find?_append] at hnone
      exact (Option.or_eq_none_iff.mp hnone).1.symm
    | method keyword name receivers => rfl

/-- The receivers come first and the parameters after what function literals before them bind. -/
theorem exists_bindings_eq (source : ByteArray) (h : t.IsDeclaration front list)
    (ht : t.Conforms Grammar.nests) :
    ∃ early rest, Lower.bindings source t =
        receiverBindings source t ++ early ++ listBindings source list ++ rest ∧
      ∀ b ∈ early, BoundInLiteral source front b := by
  have hreceiver := h.child?_receiver ht
  cases h with
  | @intro k front hfront params back =>
    obtain ⟨early, hearly, hliteral⟩ := hfront.exists_early source
      fun c hc ↦ ht.of_mem_children (List.mem_append_left _ hc)
    have hk : Lower.isTypeLiteral k = false ∧ k ∉ binders := by
      cases hfront <;> exact ⟨rfl, by decide⟩
    let list : Tree := .node (some .parameters) .parameterList params
    let rest := params.flatMap (Lower.bindings source) ++ back.flatMap (Lower.bindings source)
    refine ⟨early, rest, ?_, hliteral⟩
    calc Lower.bindings source (.node none k (front ++ list :: back))
        = (front ++ list :: back).flatMap (Lower.bindings source) := by
          rw [bindings_node hk.1, ownBindings_eq_nil hk.2]
          rfl
      _ = front.flatMap (Lower.bindings source) ++ (listBindings source list ++ rest) := by
          rw [List.flatMap_append, List.flatMap_cons, bindings_parameterList, List.append_assoc]
      _ = receiverBindings source (.node none k (front ++ list :: back)) ++ early ++
            listBindings source list ++ rest := by
          rw [hearly, receiverBindings, hreceiver, List.append_assoc _ (listBindings source list)]

end Tree.IsDeclaration

/-! ## Type literals -/

/-- Whether a tree is a function type, interface type or struct type. -/
def Tree.isTypeLiteral (t : Tree) : Bool := t.kind?.any Lower.isTypeLiteral

/-- What lies open in a tree does not start inside a type literal, behind its keyword. -/
theorem Tree.ExposedIn.start_notMem {n t literal : Tree} (hn : n.ExposedIn t) (ht : t.WellFormed)
    (hnodup : (t.tokens.map Token.start).Nodup) (hin : literal.LiesIn t)
    (hliteral : literal.isTypeLiteral = true) :
    n.start ∉ literal.tokens.tail.map Token.start := by
  induction hn with
  | self =>
    obtain ⟨token, rest, hcons, hstart⟩ := ht.exists_start
    have htail : literal.tokens.tail <+ n.tokens.tail := hin.tokens_sublist.tail
    rw [hcons, List.map_cons, List.nodup_cons] at hnodup
    rw [hcons] at htail
    rw [hstart]
    exact fun hmem ↦ hnodup.1 ((htail.map Token.start).subset hmem)
  | @child t c k hkind hopen hc hn ih =>
    cases hin with
    | self =>
      rw [isTypeLiteral, hkind, Option.any_some, hopen] at hliteral
      cases hliteral
    | @child _ c' _ _ _ hc' hin =>
      rw [tokens_eq_flatMap_children hkind, List.map_flatMap, List.nodup_flatMap] at hnodup
      by_cases heq : c = c'
      · subst heq
        exact ih (ht.of_mem_children hc) (hnodup.1 c hc) hin
      -- The tokens of different children are different.
      · have hmem : n.start ∈ c.tokens.map Token.start :=
          (hn.within ⟨ht.of_mem_children hc, List.Subset.refl _⟩).start_mem
        have htail : literal.tokens.tail <+ c'.tokens :=
          (List.tail_sublist _).trans hin.tokens_sublist
        have hsymm : Std.Symm (Function.onFun List.Disjoint fun a : Tree ↦ a.tokens.map Token.start) :=
          ⟨fun _ _ hdisjoint ↦ hdisjoint.symm⟩
        exact fun hmem' ↦ hnodup.2.forall hc hc' heq hmem ((htail.map Token.start).subset hmem')

/-! ## Functions of a file -/

/-- How the names of a declaration with the parameter list `list` behind `front` follow one another. -/
structure BindsInOrder (source : ByteArray) (t : Tree) (f : FunctionDecl) (front : List Tree)
    (list : Tree) (early rest : List Binding) : Prop where
  declares : t.IsDeclaration front list
  params : f.params = Lower.paramGroups source list
  bindings : f.bindings = receiverBindings source t ++ early ++
    f.params.flatMap (·.bindings list.start) ++ rest
  /-- Names come between receivers and parameters only if a function literal stands there. -/
  early : ∀ b ∈ early, BoundInLiteral source front b
  named : ∀ b ∈ f.bindings, b.name ≠ "_"
  /-- Nothing is bound inside a type literal, behind its keyword. -/
  outside : ∀ literal : Tree, literal.LiesIn t → literal.isTypeLiteral = true →
    ∀ token ∈ literal.tokens.tail, ∀ b ∈ f.bindings, b.pos ≠ token.start

/-- No two tokens of a tree start at the same place. -/
theorem TreesOf.nodup_starts {trees : List Tree} (h : TreesOf source trees) {t : Tree}
    (ht : t ∈ trees) : (t.tokens.map Token.start).Nodup := by
  have hpairwise := (List.pairwise_flatMap.mp h.laid.pairwise_offset_lt).1 t ht
  rw [List.Nodup, List.pairwise_map]
  refine hpairwise.imp fun hlt heq ↦ ?_
  rw [heq] at hlt
  exact Nat.lt_irrefl _ hlt

/-- The bindings of a declaration fall into receiver, early ones, parameters and the rest. -/
theorem TreesOf.exists_bindsInOrder {trees : List Tree} (h : TreesOf source trees) {t : Tree}
    (ht : t ∈ trees) (hnests : t.Conforms Grammar.nests) {front : List Tree} {list : Tree}
    (hdeclares : t.IsDeclaration front list) (above : List Piece) :
    ∃ early rest, BindsInOrder source t (Lower.function source above t) front list early rest := by
  obtain ⟨early, rest, heq, hearly⟩ := hdeclares.exists_bindings_eq source hnests
  have hparams : (Lower.function source above t).params = Lower.paramGroups source list := by
    rw [Lower.function, hdeclares.child?_parameters]
    rfl
  refine ⟨early, rest, hdeclares, hparams, ?_, hearly, ?_, ?_⟩
  · rw [hparams]
    exact heq
  · exact fun b hb ↦ (mem_bindings_iff.mp hb).2
  · intro literal hin hliteral token htoken b hb hpos
    obtain ⟨n, hn, hstart⟩ := exists_exposedIn_of_mem_allBindings (mem_bindings_iff.mp hb).1
    have hnotMem := hn.start_notMem (h.wellFormed t ht) (h.nodup_starts ht) hin hliteral
    exact hnotMem (hstart ▸ hpos ▸ List.mem_map_of_mem htoken)

/-- A group binds each of its names but `_`, with its type text and at the place of the list. -/
theorem mem_groupBindings_iff {params : List ParamGroup} {pos : Position} {b : Binding} :
    b ∈ params.flatMap (·.bindings pos) ↔
      ∃ g ∈ params, b.name ∈ g.names ∧ b.name ≠ "_" ∧
        b.type = (if g.variadic then "[]" ++ g.type else g.type) ∧ b.pos = pos := by
  obtain ⟨name, type, pos'⟩ := b
  simp only [List.mem_flatMap, ParamGroup.bindings, List.mem_map, List.mem_filter, bne_iff_ne,
    Binding.mk.injEq]
  constructor
  · rintro ⟨g, hg, _, ⟨hname, hblank⟩, rfl, rfl, rfl⟩
    exact ⟨g, hg, hname, hblank, rfl, rfl⟩
  · rintro ⟨g, hg, hname, hblank, rfl, rfl⟩
    exact ⟨g, hg, name, ⟨hname, hblank⟩, rfl, rfl, rfl⟩

/-- A parameter is what its name refers to, if its name was not bound before. -/
theorem resolve_parameter (v : FileView) {params : List ParamGroup} (pos : Position)
    {before : List Binding} (after : List Binding) {g : ParamGroup} (hg : g ∈ params) {name : String}
    (hname : name ∈ g.names) (hblank : name ≠ "_") (hbefore : ∀ b ∈ before, b.name ≠ name) :
    v.resolve (before ++ params.flatMap (·.bindings pos) ++ after) (.ident name) =
      Resolve.object v.scope.path (name ++ "@" ++ pos.display) := by
  have hnone : before.find? (fun b ↦ b.name == name) = none := by
    simpa only [List.find?_eq_none, beq_iff_eq] using hbefore
  obtain ⟨b, hfind⟩ :
      ∃ b, (params.flatMap (·.bindings pos)).find? (fun b ↦ b.name == name) = some b := by
    rw [← Option.isSome_iff_exists, List.find?_isSome]
    exact ⟨⟨name, _, pos⟩, mem_groupBindings_iff.mpr ⟨g, hg, hname, hblank, rfl, rfl⟩,
      beq_self_eq_true name⟩
  obtain ⟨-, -, -, -, -, hpos⟩ := mem_groupBindings_iff.mp (List.mem_of_find?_eq_some hfind)
  have hfound := List.find?_some hfind
  have heq : b.name = name := beq_iff_eq.mp hfound
  have hbinding :
      FileView.binding? (before ++ params.flatMap (·.bindings pos) ++ after) name = some b := by
    rw [FileView.binding?, List.find?_append, List.find?_append, hnone, hfind]
    rfl
  simp only [FileView.resolve, hbinding, heq, hpos]

end Source

end GoComplexity
