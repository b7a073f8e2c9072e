import GoComplexity.Proofs.Source.ValidViews
import Mathlib.Data.List.Flatten

/-!
# The tokens of a lowered body

The parts of a view lie in the tree of the view, in the order of its tokens and behind its first one. So
the statements and conditionals of a body start at tokens of the body, one later than the other, when
they are visited in pre-order.
-/

namespace GoComplexity.Source

open Syntax
open scoped List

/-- The body comes last. -/
theorem Role.rank_lt_of_ne_body {r : Role} (h : r ≠ .body) : r.rank < Role.rank .body := by
  cases r with
  | body => exact absurd rfl h
  | _ => decide

namespace Tree

/-! ## Children in order -/

/-- Whether a child must stand before another one. -/
def Before (a b : Tree) : Prop := ∃ i ∈ a.rank?, ∃ j ∈ b.rank?, i < j

/-- Two selections of children stand one after the other, if their roles do. -/
theorem append_sublist_of_inOrder {cs xs ys : List Tree} (h : InOrder cs) (hxs : xs <+ cs)
    (hys : ys <+ cs) (hbefore : ∀ x ∈ xs, ∀ y ∈ ys, x.Before y) : xs ++ ys <+ cs := by
  induction cs generalizing xs ys with
  | nil => rw [List.sublist_nil.mp hxs, List.sublist_nil.mp hys]; exact List.nil_sublist []
  | cons c cs ih =>
    obtain ⟨hhead, htail⟩ := List.pairwise_cons.mp h
    have hnot (a : Tree) (ha : a ∈ c :: cs) : ¬ a.Before c := by
      rintro ⟨i, hi, j, hj, hlt⟩
      rcases List.mem_cons.mp ha with rfl | ha
      · exact Nat.lt_irrefl i (by rwa [Option.mem_unique hj hi] at hlt)
      · exact Nat.lt_irrefl i (Nat.lt_of_lt_of_le hlt (hhead a ha j hj i hi))
    rcases List.sublist_cons_iff.mp hys with hys | ⟨ys', rfl, hys'⟩
    · rcases List.sublist_cons_iff.mp hxs with hxs | ⟨xs', rfl, hxs'⟩
      · exact (ih htail hxs hys hbefore).cons c
      · exact (ih htail hxs' hys fun x hx ↦ hbefore x (List.mem_cons_of_mem c hx)).cons_cons c
    -- If the second selection starts with `c`, there is nothing left for the first one.
    · cases xs with
      | nil => exact hys'.cons_cons c
      | cons x xs =>
        exact absurd (hbefore x List.mem_cons_self c List.mem_cons_self)
          (hnot x (hxs.subset List.mem_cons_self))

/-- A child with a role has the rank of the role, keywords apart. -/
theorem rank?_of_role {t : Tree} {r : Role} (h : t.role = some r) (hr : r ≠ .keyword) :
    t.rank? = some r.rank := by
  rw [rank?, h]
  cases r with
  | keyword => exact absurd rfl hr
  | _ => rfl

theorem rank?_of_named {t : Tree} (hrole : t.role = none ∨ t.role = some .keyword)
    (hnamed : t.isNamed = true) : t.rank? = some 2 := by
  rcases hrole with hrole | hrole <;> rw [rank?, hrole, hnamed] <;> rfl

theorem rank?_of_mem_statements {t c : Tree} (h : c ∈ t.statements) : c.rank? = some 2 := by
  obtain ⟨hnamed, hrole⟩ := List.mem_filter.mp h
  exact rank?_of_named (Or.inl (Option.isNone_iff_eq_none.mp hrole)) (List.mem_filter.mp hnamed).2

/-! ## Tokens of children -/

/-- Of several trees in a row the later tokens of each are later tokens of all. -/
theorem flatMap_tail_sublist (ts : List Tree) :
    (ts.flatMap fun t ↦ t.tokens.tail) <+ (ts.flatMap tokens).tail := by
  induction ts with
  | nil => exact List.nil_sublist _
  | cons t ts ih =>
    rw [List.flatMap_cons, List.flatMap_cons]
    cases t.tokens with
    | nil => exact ih
    | cons token rest =>
      rw [List.tail_cons, List.cons_append, List.tail_cons]
      exact (List.Sublist.refl rest).append (ih.trans (List.tail_sublist _))

/-- Children other than the first one lie behind the first token. -/
theorem WellFormed.flatMap_tokens_sublist_tail {t c : Tree} (h : t.WellFormed) {rest cs : List Tree}
    (hcons : t.children = c :: rest) (hcs : cs <+ t.children) (hnot : c ∉ cs) :
    cs.flatMap tokens <+ t.tokens.tail := by
  have hwell : c.WellFormed := h.of_mem_children (hcons ▸ List.mem_cons_self)
  rw [hcons] at hcs
  have hrest : cs <+ rest := by
    rcases List.sublist_cons_iff.mp hcs with hrest | ⟨cs', rfl, -⟩
    · exact hrest
    · exact absurd List.mem_cons_self hnot
  have htokens : (c :: rest).flatMap tokens <+ t.tokens := hcons ▸ t.flatMap_children_sublist
  obtain ⟨token, more, heq⟩ := List.exists_cons_of_ne_nil hwell.tokens_ne_nil
  rw [List.flatMap_cons, heq, List.cons_append] at htokens
  exact (hrest.flatMap tokens).trans ((List.sublist_append_right more _).trans htokens.tail)

/-- Children with a place lie behind the opening keyword or brace. -/
theorem WellFormed.flatMap_tokens_sublist_tail_of_opened {t : Tree} (h : t.WellFormed) {k : Kind}
    (hkind : t.kind? = some k) (hopened : k ∈ Grammar.opened) {cs : List Tree}
    (hcs : cs <+ t.children) (hrank : ∀ c ∈ cs, ∃ i, i ∈ c.rank?) :
    cs.flatMap tokens <+ t.tokens.tail := by
  obtain ⟨c, rest, hcons, hnone⟩ := h.exists_opener hkind hopened
  refine h.flatMap_tokens_sublist_tail hcons hcs fun hc ↦ ?_
  obtain ⟨i, hi⟩ := hrank c hc
  simp [hnone] at hi

end Tree

namespace View

/-! ## Tokens of views -/

def tokens : View → List Token
  | .expr t | .applied t | .stmt t | .cond t | .case t | .comm t => t.tokens
  | .hole => []

/-- The tokens where statements of the view can start: in an expression no statement starts at the
first token. -/
def due : View → List Token
  | .expr t | .applied t => t.tokens.tail
  | .hole => []
  | .stmt t | .cond t | .case t | .comm t => t.tokens

theorem flatMap_due_operands (t : Tree) : (operands t).flatMap due <+ t.tokens.tail := by
  rw [operands, List.flatMap_map]
  calc (t.named.flatMap fun c ↦ c.tokens.tail)
      <+ (t.named.flatMap Tree.tokens).tail := Tree.flatMap_tail_sublist t.named
    _ <+ (t.children.flatMap Tree.tokens).tail := (t.named_sublist.flatMap Tree.tokens).tail
    _ <+ t.tokens.tail := t.flatMap_children_sublist.tail

theorem flatMap_due_body (t : Tree) : (body t).flatMap due <+ t.tokens := by
  rw [body, List.flatMap_map]
  exact (t.statements_sublist.flatMap Tree.tokens).trans t.flatMap_children_sublist

theorem flatMap_due_items (t : Tree) : (items t).flatMap due <+ t.tokens.tail := by
  rw [items]
  split
  · exact flatMap_due_operands t
  · simp [due]

theorem due_ofRole (t : Tree) (r : Role) :
    (ofRole t r).due = (t.child? r).toList.flatMap fun c ↦ c.tokens.tail := by
  rw [ofRole]
  cases t.child? r <;> simp [due]

/-- Views that keep inside the children of a tree keep inside its tokens. -/
theorem flatMap_due_sublist {cs : List Tree} {f : Tree → List View}
    (hf : ∀ c, (f c).flatMap due <+ c.tokens) :
    (cs.flatMap f).flatMap due <+ cs.flatMap Tree.tokens := by
  rw [List.flatMap_assoc]
  exact List.Sublist.flatMap_right cs fun c _ ↦ hf c

/-- What is due tree by tree is due for all of them in a row. -/
theorem flatMap_due_sublist_tail {cs : List Tree} {f : Tree → List View}
    (hf : ∀ c, (f c).flatMap due <+ c.tokens.tail) :
    (cs.flatMap f).flatMap due <+ cs.flatMap fun c ↦ c.tokens.tail := by
  rw [List.flatMap_assoc]
  exact List.Sublist.flatMap_right cs fun c _ ↦ hf c

/-- Expressions under the children of a tree, in order. -/
theorem sublist_tail_of_sublist {t : Tree} {cs : List Tree} (hcs : cs <+ t.children) :
    (cs.flatMap fun c ↦ c.tokens.tail) <+ t.tokens.tail :=
  (Tree.flatMap_tail_sublist cs).trans
    ((hcs.flatMap Tree.tokens).trans t.flatMap_children_sublist).tail

/-! ## Parts in order -/

/-- Children with one role and then children with a later one. -/
theorem child?_append_sublist {t : Tree} (h : t.WellFormed) {k : Kind} (hkind : t.kind? = some k)
    (hordered : k ∈ Grammar.ordered) {r : Role} (hr : r ≠ .keyword) {cs : List Tree}
    (hcs : cs <+ t.children) (hrank : ∀ c ∈ cs, ∃ i ∈ c.rank?, r.rank < i) :
    (t.child? r).toList ++ cs <+ t.children := by
  refine Tree.append_sublist_of_inOrder ((h.content hkind).inOrder hordered)
    (t.child?_toList_sublist r) hcs fun x hx y hy ↦ ?_
  exact ⟨r.rank, Tree.rank?_of_role (Tree.role_of_child? hx) hr, hrank y hy⟩

theorem rank_lt_of_child? {t : Tree} {r r' : Role} (hr' : r' ≠ .keyword) (hlt : r.rank < r'.rank) :
    ∀ c ∈ (t.child? r').toList, ∃ i ∈ c.rank?, r.rank < i :=
  fun _ hc ↦ ⟨r'.rank, Tree.rank?_of_role (Tree.role_of_child? hc) hr', hlt⟩

/-- Children with roles in their usual order, and then children with later ones. -/
theorem flatMap_child?_append_sublist {t : Tree} (h : t.WellFormed) {k : Kind}
    (hkind : t.kind? = some k) (hordered : k ∈ Grammar.ordered) (rs : List Role)
    (hkeyword : .keyword ∉ rs) (hrs : rs.Pairwise fun r r' ↦ r.rank < r'.rank) {cs : List Tree}
    (hcs : cs <+ t.children) (hrank : ∀ r ∈ rs, ∀ c ∈ cs, ∃ i ∈ c.rank?, r.rank < i) :
    rs.flatMap (fun r ↦ (t.child? r).toList) ++ cs <+ t.children := by
  induction rs with
  | nil => exact hcs
  | cons r rs ih =>
    obtain ⟨hr, hkeyword⟩ := not_or.mp (mt List.mem_cons.mpr hkeyword)
    obtain ⟨hlater, hrs⟩ := List.pairwise_cons.mp hrs
    obtain ⟨hself, hrank⟩ := List.forall_mem_cons.mp hrank
    rw [List.flatMap_cons, List.append_assoc]
    apply child?_append_sublist h hkind hordered (Ne.symm hr) (ih hkeyword hrs hrank)
    intro c hc
    rcases List.mem_append.mp hc with hc | hc
    · obtain ⟨r', hr', hc⟩ := List.mem_flatMap.mp hc
      have hne : r' ≠ .keyword := fun heq ↦ hkeyword (heq ▸ hr')
      exact rank_lt_of_child? hne (hlater r' hr') c hc
    · exact hself c hc

/-- Statements in an expression start at different tokens behind its first one, in order. -/
theorem flatMap_due_exprParts {t : Tree} (h : t.WellFormed) :
    (exprParts t).flatMap due <+ t.tokens.tail := by
  have hpair {k : Kind} (hkind : t.kind? = some k) (hordered : k ∈ Grammar.ordered) {r r' : Role}
      (hr : r ≠ .keyword) (hr' : r' ≠ .keyword) (hlt : r.rank < r'.rank) :
      ((t.child? r).toList.flatMap fun c ↦ c.tokens.tail) ++
        ((t.child? r').toList.flatMap fun c ↦ c.tokens.tail) <+ t.tokens.tail := by
    rw [← List.flatMap_append]
    exact sublist_tail_of_sublist (child?_append_sublist h hkind hordered hr
      (t.child?_toList_sublist r') (rank_lt_of_child? hr' hlt))
  unfold exprParts
  split
  · exact List.nil_sublist _
  · rename_i hkind
    rw [List.flatMap_append, List.flatMap_map]
    exact ((List.Sublist.refl _).append (flatMap_due_sublist_tail flatMap_due_operands)).trans
      (hpair hkind (by decide) (by decide) (by decide) (by decide))
  · rename_i hkind
    split
    · rename_i callee arguments hcallee harguments
      have hcall := @hpair _ hkind (by decide) .callee .arguments (by decide) (by decide) (by decide)
      simp only [hcallee, harguments, Option.toList_some, List.flatMap_singleton] at hcall
      have hdue (v : View) (hv : v.due = callee.tokens.tail) :
          (v :: operands arguments).flatMap due <+ t.tokens.tail := by
        rw [List.flatMap_cons, hv]
        exact ((flatMap_due_operands arguments).append_left _).trans hcall
      split
      · exact hdue _ rfl
      · exact hdue _ rfl
    · exact List.nil_sublist _
  · rename_i hkind
    rw [List.flatMap_cons, due_ofRole, List.flatMap_map]
    exact hpair hkind (by decide) (by decide) (by decide) (by decide)
  · rw [List.flatMap_singleton, due_ofRole]
    exact sublist_tail_of_sublist (t.child?_toList_sublist .operand)
  · rename_i hkind
    refine (flatMap_due_sublist flatMap_due_body).trans ?_
    refine h.flatMap_tokens_sublist_tail_of_opened hkind (by decide)
      (t.child?_toList_sublist .body) fun c hc ↦ ?_
    exact ⟨_, Tree.rank?_of_role (Tree.role_of_child? hc) (by decide)⟩
  · rename_i hkind
    rw [List.flatMap_cons, List.flatMap_singleton, due_ofRole, due_ofRole]
    exact hpair hkind (by decide) (by decide) (by decide) (by decide)
  · exact flatMap_due_operands t

theorem exists_rank_of_child? {t : Tree} {r : Role} (hr : r ≠ .keyword) :
    ∀ c ∈ (t.child? r).toList, ∃ i, i ∈ c.rank? :=
  fun _ hc ↦ ⟨r.rank, Tree.rank?_of_role (Tree.role_of_child? hc) hr⟩

theorem flatMap_tail_sublist_tokens (cs : List Tree) :
    (cs.flatMap fun c ↦ c.tokens.tail) <+ cs.flatMap Tree.tokens :=
  List.Sublist.flatMap_right cs fun c _ ↦ List.tail_sublist c.tokens

theorem flatMap_due_alternative (t : Tree) : (alternative t).flatMap due <+ t.tokens := by
  rw [alternative]
  split
  · simp [due]
  · exact flatMap_due_body t

/-- Statements in a conditional start at different tokens behind its keyword, in order. -/
theorem flatMap_due_condParts {t : Tree} (h : t.WellFormed) (hkind : t.kind? = some .ifStmt) :
    (condParts t).flatMap due <+ t.tokens.tail := by
  let roles : List Role := [.initializer, .condition, .consequence]
  have hranks : ∀ r ∈ roles, r.rank < Role.rank .alternative := by decide
  have hall := flatMap_child?_append_sublist h hkind (by decide) roles (by decide) (by decide)
    (t.child?_toList_sublist .alternative) fun r hr ↦ rank_lt_of_child? (by decide) (hranks r hr)
  simp only [roles, List.flatMap_cons, List.flatMap_nil, List.append_assoc, List.nil_append] at hall
  refine List.Sublist.trans ?_ (h.flatMap_tokens_sublist_tail_of_opened hkind (by decide) hall ?_)
  · simp only [condParts, List.flatMap_append, List.flatMap_cons, List.flatMap_map, due_ofRole]
    exact (List.Sublist.refl _).append ((flatMap_tail_sublist_tokens _).append
      ((flatMap_due_sublist flatMap_due_body).append
        (flatMap_due_sublist flatMap_due_alternative)))
  · simp only [List.forall_mem_append]
    exact ⟨exists_rank_of_child? (by decide), exists_rank_of_child? (by decide),
      exists_rank_of_child? (by decide), exists_rank_of_child? (by decide)⟩

theorem rank?_of_mem_ofKinds {t c : Tree} (h : t.WellFormed) {k : Kind} (hkind : t.kind? = some k)
    {kinds : List Kind} (hkinds : kinds ⊆ Grammar.clauseKinds) (hc : c ∈ t.ofKinds kinds) :
    c.rank? = some 2 := by
  obtain ⟨k', hk', hkind'⟩ := Tree.exists_kind_of_mem_ofKinds hc
  exact Tree.rank?_of_named (Or.inl ((h.content hkind).role_of_clause c
    (List.filter_sublist.subset hc) k' (hkinds hk') hkind')) (Tree.isNamed_of_kind? hkind')

/-- Statements in a switch start at different tokens behind its keyword, in order. -/
theorem flatMap_due_switchParts {t : Tree} (h : t.WellFormed) {k : Kind} (hkind : t.kind? = some k)
    (hordered : k ∈ Grammar.ordered) (hopened : k ∈ Grammar.opened) :
    (switchParts t).flatMap due <+ t.tokens.tail := by
  have hclause (c : Tree) (hc : c ∈ t.ofKinds caseKinds) : c.rank? = some 2 :=
    rank?_of_mem_ofKinds h hkind (by decide) hc
  have hranks : ∀ r ∈ [Role.initializer, .value], r.rank < 2 := by decide
  have hall := flatMap_child?_append_sublist h hkind hordered [.initializer, .value] (by decide)
    (by decide) (List.filter_sublist : t.ofKinds caseKinds <+ t.children)
    fun r hr c hc ↦ ⟨2, hclause c hc, hranks r hr⟩
  simp only [List.flatMap_cons, List.flatMap_nil, List.append_assoc, List.nil_append] at hall
  refine List.Sublist.trans ?_ (h.flatMap_tokens_sublist_tail_of_opened hkind hopened hall ?_)
  · simp only [switchParts, List.flatMap_append, List.flatMap_map, List.append_assoc]
    exact (List.Sublist.refl _).append ((flatMap_tail_sublist_tokens _).append (List.Sublist.refl _))
  · simp only [List.forall_mem_append]
    exact ⟨exists_rank_of_child? (by decide), exists_rank_of_child? (by decide),
      fun c hc ↦ ⟨2, hclause c hc⟩⟩

/-- The header of a loop stands before its body. -/
theorem flatMap_due_loop {t : Tree} (h : t.WellFormed) (hkind : t.kind? = some .forStmt) :
    (t.header.map expr ++ (t.child? .body).toList.flatMap body).flatMap due <+ t.tokens.tail := by
  have hheader (c : Tree) (hc : c ∈ t.header) : ∃ i ∈ c.rank?, i < Role.rank .body := by
    obtain ⟨hnamed, hrole⟩ := List.mem_filter.mp hc
    by_cases hplain : c.role = none ∨ c.role = some .keyword
    · exact ⟨2, Tree.rank?_of_named hplain (List.mem_filter.mp hnamed).2, by decide⟩
    · obtain ⟨hsome, hkeyword⟩ := not_or.mp hplain
      obtain ⟨r, hr⟩ := Option.ne_none_iff_exists'.mp hsome
      have hne : r ≠ .body := fun heq ↦ by simp [hr, heq] at hrole
      have hranked : r ≠ .keyword := fun heq ↦ hkeyword (hr.trans (congrArg some heq))
      exact ⟨r.rank, Tree.rank?_of_role hr hranked, Role.rank_lt_of_ne_body hne⟩
  have hall : t.header ++ (t.child? .body).toList <+ t.children := by
    refine Tree.append_sublist_of_inOrder ((h.content hkind).inOrder (by decide))
      (List.filter_sublist.trans t.named_sublist) (t.child?_toList_sublist .body) fun x hx y hy ↦ ?_
    obtain ⟨i, hi, hlt⟩ := hheader x hx
    exact ⟨i, hi, _, Tree.rank?_of_role (Tree.role_of_child? hy) (by decide), hlt⟩
  refine List.Sublist.trans ?_ (h.flatMap_tokens_sublist_tail_of_opened hkind (by decide) hall ?_)
  · simp only [List.flatMap_append, List.flatMap_map]
    exact (flatMap_tail_sublist_tokens _).append (flatMap_due_sublist flatMap_due_body)
  · simp only [List.forall_mem_append]
    refine ⟨fun c hc ↦ ?_, exists_rank_of_child? (by decide)⟩
    obtain ⟨i, hi, -⟩ := hheader c hc
    exact ⟨i, hi⟩

/-- The statement behind a label stands behind it. -/
theorem flatMap_due_labeled {t : Tree} (h : t.WellFormed) (hkind : t.kind? = some .labeledStmt) :
    ((body t).take 1).flatMap due <+ t.tokens.tail := by
  refine ((List.take_sublist 1 (body t)).flatMap due).trans ?_
  rw [body, List.flatMap_map]
  obtain ⟨c, rest, hcons, l, hl, hrole, -⟩ := (h.content hkind).opens _ rfl
  refine h.flatMap_tokens_sublist_tail hcons t.statements_sublist fun hc ↦ ?_
  obtain ⟨-, hnone⟩ := List.mem_filter.mp hc
  rw [List.mem_singleton.mp hl] at hrole
  simp [hrole] at hnone

/-- Statements in a statement start at different tokens behind its first one, in order. -/
theorem flatMap_due_stmtParts {t : Tree} (h : t.WellFormed) :
    (stmtParts t).flatMap due <+ t.tokens.tail := by
  unfold stmtParts
  split
  · exact List.nil_sublist _
  · rename_i hkind
    exact flatMap_due_condParts h hkind
  · rename_i hkind
    exact flatMap_due_loop h hkind
  · rename_i hkind
    exact flatMap_due_switchParts h hkind (by decide) (by decide)
  · rename_i hkind
    exact flatMap_due_switchParts h hkind (by decide) (by decide)
  · rename_i hkind
    rw [List.flatMap_map]
    exact h.flatMap_tokens_sublist_tail_of_opened hkind (by decide) List.filter_sublist
      fun c hc ↦ ⟨2, rank?_of_mem_ofKinds h hkind (by decide) hc⟩
  · rename_i hkind
    rw [body, List.flatMap_map]
    exact h.flatMap_tokens_sublist_tail_of_opened hkind (by decide) t.statements_sublist
      fun c hc ↦ ⟨2, Tree.rank?_of_mem_statements hc⟩
  · rename_i hkind
    exact flatMap_due_labeled h hkind
  · exact (flatMap_due_sublist_tail flatMap_due_items).trans (sublist_tail_of_sublist t.named_sublist)

/-- What a clause starts with stands before its statements. -/
theorem flatMap_due_clause {t : Tree} (h : t.WellFormed) {k : Kind} (hkind : t.kind? = some k)
    (hclause : k ∈ Grammar.clauseKinds) {cs : List Tree} {vs : List View} (hcs : cs <+ t.children)
    (hrank : ∀ c ∈ cs, c.rank? = some 1) (hvs : vs.flatMap due <+ cs.flatMap Tree.tokens) :
    (vs ++ body t).flatMap due <+ t.tokens.tail := by
  have hordered : k ∈ Grammar.ordered ∧ k ∈ Grammar.opened :=
    (by decide : ∀ k ∈ Grammar.clauseKinds, k ∈ Grammar.ordered ∧ k ∈ Grammar.opened) k hclause
  have hall : cs ++ t.statements <+ t.children := by
    refine Tree.append_sublist_of_inOrder ((h.content hkind).inOrder hordered.1) hcs
      t.statements_sublist fun x hx y hy ↦ ?_
    exact ⟨1, hrank x hx, 2, Tree.rank?_of_mem_statements hy, by decide⟩
  refine List.Sublist.trans ?_ (h.flatMap_tokens_sublist_tail_of_opened hkind hordered.2 hall ?_)
  · rw [List.flatMap_append, List.flatMap_append, body, List.flatMap_map]
    exact hvs.append (List.Sublist.refl _)
  · simp only [List.forall_mem_append]
    exact ⟨fun c hc ↦ ⟨1, hrank c hc⟩, fun c hc ↦ ⟨2, Tree.rank?_of_mem_statements hc⟩⟩

theorem flatMap_due_case {toks : List Token} {t : Tree} (h : (case t).Valid toks) :
    (caseList t ++ body t).flatMap due <+ t.tokens.tail := by
  obtain ⟨⟨hwell, -⟩, k, hk, hkind⟩ := h
  have hclause := (by decide : caseKinds ⊆ Grammar.clauseKinds) hk
  unfold caseList
  split
  · refine flatMap_due_clause hwell hkind hclause (t.child?_toList_sublist .value) ?_ ?_
    · exact fun c hc ↦ Tree.rank?_of_role (Tree.role_of_child? hc) (by decide)
    · exact flatMap_due_sublist fun c ↦ (flatMap_due_operands c).trans (List.tail_sublist _)
  · have htypes : (t.children.filter fun c ↦ c.role == some .type) <+ t.children :=
      List.filter_sublist
    refine flatMap_due_clause hwell hkind hclause htypes ?_ ?_
    · exact fun c hc ↦ Tree.rank?_of_role (beq_iff_eq.mp (List.mem_filter.mp hc).2) (by decide)
    · rw [List.flatMap_map]
      exact flatMap_tail_sublist_tokens _
  · exact flatMap_due_clause hwell hkind hclause (List.nil_sublist _) (by simp) (List.nil_sublist _)

theorem flatMap_due_comm {toks : List Token} {t : Tree} (h : (comm t).Valid toks) :
    ((t.child? .communication).toList.map stmt ++ body t).flatMap due <+ t.tokens.tail := by
  obtain ⟨⟨hwell, -⟩, k, hk, hkind⟩ := h
  have hclause := (by decide : commKinds ⊆ Grammar.clauseKinds) hk
  refine flatMap_due_clause hwell hkind hclause (t.child?_toList_sublist .communication) ?_ ?_
  · exact fun c hc ↦ Tree.rank?_of_role (Tree.role_of_child? hc) (by decide)
  · rw [List.flatMap_map]
    rfl

/-- The parts of a view lie one after the other behind its first token. -/
theorem flatMap_due_parts {toks : List Token} {v : View} (h : v.Valid toks) :
    v.parts.flatMap due <+ v.tokens.tail := by
  cases v with
  | expr t => exact flatMap_due_exprParts h.wellFormed
  | applied t => rw [parts, List.flatMap_singleton]; rfl
  | hole => exact List.nil_sublist _
  | stmt t => exact flatMap_due_stmtParts h.wellFormed
  | cond t => exact flatMap_due_condParts h.1.wellFormed h.2
  | case t => exact flatMap_due_case h
  | comm t => exact flatMap_due_comm h

end View

end GoComplexity.Source
