import GoComplexity.Proofs.Metric.Relabeling
import GoComplexity.Proofs.Source.AlikeBodies
import GoComplexity.Proofs.Source.Files
import GoComplexity.Proofs.Source.Insertion
import GoComplexity.Metric.Parameters

/-!
# Structural metrics and comments

A comment put between two tokens of a body leaves the trees of a source alike: up to the comment they
stay, and behind it their tokens move. So the function keeps its parameters, and its body keeps its
conditionals with their verdicts, its depth and its complexity. A `/*` that nothing closes is no comment
as long as it stays open, and a null byte keeps a comment open. With either of them around, an inserted
comment can hide code.
-/

namespace GoComplexity

open Syntax

namespace Source

open List

variable {source : ByteArray} {text : List UInt8} {place count : ℕ} {t t' : Tree}

/-! ## Trees in front of the place -/

/-- Moved tokens keep kind and line break, and so do the halves of a moved mark. -/
theorem similarity_displaced (place count : ℕ) : Similarity (Displaced place count) where
  kind _ _ h := h.kind_eq
  newline _ _ h := h.newline_eq
  halves _ _ _ _ h := h.halves

/-- A token that starts in front of the place ends there and stays. -/
theorem Displaced.eq_of_before {tok tok' : Token} (h : Displaced place count tok tok')
    (hbefore : tok.start.offset < place) : tok' = tok ∧ tok.stop.offset ≤ place := by
  cases h with
  | kept hstop => exact ⟨rfl, hstop⟩
  | moved hplace => exact absurd hbefore (Nat.not_lt.mpr hplace)

/-- A tree whose tokens start in front of the place stays. -/
theorem Tree.Alike.eq_of_before (hwell : t.WellFormed) (h : t.Alike (Displaced place count) t')
    (hbefore : ∀ tok ∈ t.tokens, tok.start.offset < place) : t' = t := by
  induction hwell generalizing t' with
  | leaf role tok =>
    cases h with
    | leaf _ htoken => rw [(htoken.eq_of_before (hbefore tok mem_cons_self)).1]
  | @node role kind children o hdescribes hadmits hchildren ih =>
    cases h with
    | @node _ _ _ children' halike =>
      have hsame : ∀ c ∈ children, ∀ c', c.Alike (Displaced place count) c' → c' = c := by
        intro c hc c' hcc'
        refine ih c hc hcc' fun tok htok ↦ hbefore tok ?_
        rw [Tree.tokens_node]
        exact mem_flatMap.mpr ⟨c, hc, htok⟩
      have hpairs := (forall₂_and_left _ _).mpr ⟨hsame, halike⟩
      have heq : Forall₂ Eq children children' := hpairs.imp fun c c' hc ↦ (hc.1 c' hc.2).symm
      rw [forall₂_eq_eq_eq] at heq
      rw [heq]

theorem Tree.Alike.stop_le_of_before (hwell : t.WellFormed) (h : t.Alike (Displaced place count) t')
    (hbefore : ∀ tok ∈ t.tokens, tok.start.offset < place) {tok : Token} (htok : tok ∈ t.tokens) :
    tok.stop.offset ≤ place := by
  obtain ⟨i, hi⟩ := getElem?_of_mem htok
  obtain ⟨tok', -, hdisplaced⟩ := exists_getElem?_of_forall₂ (h.tokens hwell) hi
  exact (hdisplaced.eq_of_before (hbefore tok htok)).2

theorem Tree.Alike.start_eq (hwell : t.WellFormed) (h : t.Alike (Displaced place count) t')
    (hbefore : t.start.offset < place) : t'.start = t.start := by
  have htokens := h.tokens hwell
  obtain ⟨tok, rest, hcons⟩ := exists_cons_of_ne_nil hwell.tokens_ne_nil
  rw [hcons] at htokens
  generalize hcons' : t'.tokens = toks' at htokens
  cases htokens with
  | @cons _ tok' _ rest' htoken hrest =>
    rw [Tree.start_of_tokens_eq_cons hcons] at hbefore ⊢
    rw [Tree.start_of_tokens_eq_cons hcons', (htoken.eq_of_before hbefore).1]

/-! ## Texts in front of the place -/

theorem Tree.text_insertComment (hplace : place ≤ source.toList.length) (text : List UInt8)
    (hstop : ∀ tok ∈ t.tokens, tok.stop.offset ≤ place) :
    t.text (insertComment source place text) = t.text source := by
  refine slice_insertComment_of_le hplace text ?_
  rw [Tree.stop, Tree.last?_eq_getLast?]
  cases hlast : t.tokens.getLast? with
  | none => exact Nat.zero_le place
  | some tok => exact hstop tok (mem_of_getLast? hlast)

theorem Lower.paramGroups_insertComment (hplace : place ≤ source.toList.length) (text : List UInt8)
    (hstop : ∀ tok ∈ t.tokens, tok.stop.offset ≤ place) :
    paramGroups (insertComment source place text) t = paramGroups source t := by
  have htexts (c : Tree) (hc : c ∈ t.children) (d : Tree) (hd : d ∈ c.children) :
      d.text (insertComment source place text) = d.text source := by
    refine Tree.text_insertComment hplace text fun tok htok ↦ hstop tok ?_
    have hc' := c.flatMap_children_sublist.subset (mem_flatMap.mpr ⟨d, hd, htok⟩)
    exact t.flatMap_children_sublist.subset (mem_flatMap.mpr ⟨c, hc, hc'⟩)
  refine congrArg normalizeGroups (filterMap_congr fun c hc ↦ ?_)
  have hnames : (c.children.filter fun d ↦ d.role == some .name).map
      (Tree.text (insertComment source place text)) =
      (c.children.filter fun d ↦ d.role == some .name).map (Tree.text source) :=
    map_congr_left fun d hd ↦ htexts c hc d (mem_of_mem_filter hd)
  have htype : (c.child? .type).map (Tree.text (insertComment source place text)) =
      (c.child? .type).map (Tree.text source) :=
    Option.map_congr fun d hd ↦ htexts c hc d (Tree.mem_children_of_child? hd)
  rw [paramGroup?, paramGroup?, hnames, htype]

theorem respelled_insertComment (hplace : place ≤ source.toList.length) (text : List UInt8) :
    Respelled (Displaced place (spacedComment text).length) source
      (insertComment source place text) where
  similarity := similarity_displaced _ _
  slice _ _ h := h.slice_eq hplace

/-! ## Functions -/

/-- The functions of a file are those of its declarations, one by one. -/
theorem getElem?_functions {before : List Piece} {trees : List Tree} {i : ℕ} {f : FunctionDecl}
    (h : (Lower.functions source before trees)[i]? = some f) :
    ∃ above t, (trees.filter Tree.isFunction)[i]? = some t ∧ f = Lower.function source above t := by
  obtain ⟨decls, hfunctions, hdecls⟩ := exists_functions_eq_map source before trees
  rw [hfunctions, getElem?_map] at h
  obtain ⟨d, hd, rfl⟩ := Option.map_eq_some_iff.mp h
  refine ⟨d.1, d.2, ?_, rfl⟩
  rw [← hdecls, getElem?_map, hd, Option.map_some]

theorem exists_getElem?_functions {trees : List Tree} {i : ℕ}
    (h : (trees.filter Tree.isFunction)[i]? = some t) (source : ByteArray) (before : List Piece) :
    ∃ above, (Lower.functions source before trees)[i]? = some (Lower.function source above t) := by
  obtain ⟨decls, hfunctions, hdecls⟩ := exists_functions_eq_map source before trees
  rw [← hdecls, getElem?_map] at h
  obtain ⟨d, hd, rfl⟩ := Option.map_eq_some_iff.mp h
  refine ⟨d.1, ?_⟩
  rw [hfunctions, getElem?_map, hd, Option.map_some]

/-- Of two alike files both have a package clause or none. -/
theorem isSome_package?_of_alike {R : Token → Token → Prop} (hR : Similarity R)
    {source source' : ByteArray} {trees trees' : List Tree}
    (h : Forall₂ (Tree.Alike R) trees trees') :
    (Lower.package? source' trees').isSome = (Lower.package? source trees).isSome := by
  have hclauses : Forall₂ (Tree.Alike R) (Lower.ofKind .packageClause trees)
      (Lower.ofKind .packageClause trees') :=
    forall₂_filter (fun _ _ hc ↦ hc.hasKind_eq .packageClause) h
  rw [Lower.package?, Lower.package?]
  generalize Lower.ofKind .packageClause trees = clauses at hclauses
  generalize Lower.ofKind .packageClause trees' = clauses' at hclauses
  cases hclauses with
  | nil => simp only [head?_nil, Option.bind_eq_bind, Option.bind_none]
  | @cons clause clause' _ _ hclause _ =>
    have hname : Option.Rel (Tree.Alike R) (clause.children.find? Tree.isNamed)
        (clause'.children.find? Tree.isNamed) :=
      rel_find? (fun _ _ hc ↦ hc.isNamed_eq hR) hclause.children
    simp only [head?_cons, Option.bind_eq_bind, Option.bind_some]
    generalize clause.children.find? Tree.isNamed = name at hname
    generalize clause'.children.find? Tree.isNamed = name' at hname
    cases hname with
    | none => simp only [Option.bind_none]
    | some => simp only [Option.bind_some, Option.pure_def, Option.isSome_some]

theorem exists_file_of_alike {R : Token → Token → Prop} (hR : Similarity R) {path : String}
    {source source' : ByteArray} {trees trees' : List Tree} (h : Forall₂ (Tree.Alike R) trees trees')
    {file : SourceFile} (hfile : Lower.file source path trees = .ok file) :
    ∃ file', Lower.file source' path trees' = .ok file' := by
  have hpackage : (Lower.package? source' trees').isSome = (Lower.package? source trees).isSome :=
    isSome_package?_of_alike hR h
  rw [Lower.file] at hfile ⊢
  split at hfile
  · simp at hfile
  · rename_i package heq
    rw [heq, Option.isSome_some, Option.isSome_iff_exists] at hpackage
    obtain ⟨package', heq'⟩ := hpackage
    rw [heq']
    exact ⟨_, rfl⟩

/-! ### Children in front of the body -/

section Declaration

variable {trees : List Tree} {body : Tree}

theorem TreesOf.pairwise_start_lt (h : TreesOf source trees) (ht : t ∈ trees) :
    t.tokens.Pairwise fun tok tok' ↦ tok.start.offset < tok'.start.offset := by
  have hsublist := (singleton_sublist.mpr ht).flatMap Tree.tokens
  rw [flatMap_singleton] at hsublist
  exact h.laid.pairwise_offset_lt.sublist hsublist

theorem Tree.exists_mem_tokens_start (hwell : t.WellFormed) : ∃ tok ∈ t.tokens, t.start = tok.start := by
  obtain ⟨tok, rest, hcons⟩ := exists_cons_of_ne_nil hwell.tokens_ne_nil
  exact ⟨tok, hcons ▸ mem_cons_self, Tree.start_of_tokens_eq_cons hcons⟩

/-- The tokens of the other children of a declaration start before its body. -/
theorem start_lt_body (h : TreesOf source trees) (ht : t ∈ trees) (hfunction : t.isFunction = true)
    (hbody : t.child? .body = some body) {r : Role} (hr : r ≠ .body) (hrole : r ≠ .keyword) {c : Tree}
    (hc : t.child? r = some c) : ∀ tok ∈ c.tokens, tok.start.offset < body.start.offset := by
  have hwell := h.wellFormed t ht
  obtain ⟨k, hkind, hordered⟩ : ∃ k, t.kind? = some k ∧ k ∈ Grammar.ordered := by
    rcases Bool.or_eq_true_iff.mp hfunction with hkind | hkind
    · exact ⟨_, Tree.hasKind_iff.mp hkind, by decide⟩
    · exact ⟨_, Tree.hasKind_iff.mp hkind, by decide⟩
  have hchildren := View.child?_append_sublist hwell hkind hordered hrole
    (t.child?_toList_sublist .body)
    (View.rank_lt_of_child? (by decide) (Role.rank_lt_of_ne_body hr))
  rw [hc, hbody] at hchildren
  have htokens := (hchildren.flatMap Tree.tokens).trans t.flatMap_children_sublist
  have hpairwise := (h.pairwise_start_lt ht).sublist htokens
  simp only [Option.toList_some, singleton_append, flatMap_cons, flatMap_nil, append_nil] at hpairwise
  obtain ⟨first, hfirst, hstart⟩ :=
    Tree.exists_mem_tokens_start (hwell.of_mem_children (Tree.mem_children_of_child? hbody))
  intro tok htok
  rw [hstart]
  exact (pairwise_append.mp hpairwise).2.2 tok htok first hfirst

/-- A declaration starts before its body. -/
theorem start_lt_body_of_keyword (h : TreesOf source trees) (ht : t ∈ trees)
    (hfunction : t.isFunction = true) (hbody : t.child? .body = some body) :
    t.start.offset < body.start.offset := by
  have hwell := h.wellFormed t ht
  obtain ⟨k, hkind, hopened, -⟩ := Tree.exists_kind_of_isFunction hfunction
  have htail := hwell.flatMap_tokens_sublist_tail_of_opened hkind hopened
    (t.child?_toList_sublist .body) (View.exists_rank_of_child? (by decide))
  rw [hbody] at htail
  simp only [Option.toList_some, flatMap_cons, flatMap_nil, append_nil] at htail
  obtain ⟨first, hfirst, hstart⟩ :=
    Tree.exists_mem_tokens_start (hwell.of_mem_children (Tree.mem_children_of_child? hbody))
  obtain ⟨tok, rest, hcons⟩ := exists_cons_of_ne_nil hwell.tokens_ne_nil
  have hpairwise := h.pairwise_start_lt ht
  rw [hcons] at htail hpairwise
  rw [hstart, Tree.start_of_tokens_eq_cons hcons]
  exact rel_of_pairwise_cons hpairwise (htail.subset hfirst)

/-- What is made of the other children of a declaration stays, if it depends on texts in front of the
place alone. -/
theorem map_child?_of_before {β : Type} {F G : Tree → β} (h : TreesOf source trees) (ht : t ∈ trees)
    (hfunction : t.isFunction = true) (hbody : t.child? .body = some body)
    (hbefore : body.start.offset < place) (halike : t.Alike (Displaced place count) t') {r : Role}
    (hr : r ≠ .body) (hrole : r ≠ .keyword)
    (hFG : ∀ c, (∀ tok ∈ c.tokens, tok.stop.offset ≤ place) → F c = G c) :
    (t'.child? r).map F = (t.child? r).map G := by
  have hchild := halike.child? r
  cases hc : t.child? r with
  | none =>
    rw [hc] at hchild
    generalize t'.child? r = x at hchild
    cases hchild
    rfl
  | some c =>
    have hwell := (h.wellFormed t ht).of_mem_children (Tree.mem_children_of_child? hc)
    have hstarts (tok : Token) (htok : tok ∈ c.tokens) : tok.start.offset < place :=
      Nat.lt_trans (start_lt_body h ht hfunction hbody hr hrole hc tok htok) hbefore
    rw [hc] at hchild
    generalize t'.child? r = x at hchild
    cases hchild with
    | some hchild =>
      obtain rfl := hchild.eq_of_before hwell hstarts
      rw [Option.map_some, Option.map_some, hFG _ fun tok ↦ hchild.stop_le_of_before hwell hstarts]

end Declaration

/-- A body opens behind the byte order mark. -/
theorem textStart_le_lbrace {path : String} {file : SourceFile} (h : readSource path source = .ok file)
    {f : FunctionDecl} (hf : f ∈ file.functions) {b : Block} (hb : f.body = some b) :
    (textStart source).offset ≤ b.lbrace.offset := by
  obtain ⟨trees, htrees, hfunctions, -⟩ := exists_treesOf_of_readSource h
  rw [hfunctions] at hf
  obtain ⟨t, ht, above, hfunction, rfl⟩ := exists_of_mem_functions hf
  have hwell := htrees.wellFormed t ht
  obtain ⟨c, hc, -, htokens, rfl⟩ := exists_body_of_function hwell hfunction hb
  obtain ⟨tok, htok, hstart⟩ := Tree.exists_mem_tokens_start (hwell.of_mem_children hc)
  have hmem : tok ∈ trees.flatMap Tree.tokens :=
    mem_flatMap.mpr ⟨t, ht, mem_of_mem_tail (htokens.subset htok)⟩
  calc (textStart source).offset ≤ tok.start.offset := htrees.textStart_le tok hmem
    _ = (Lower.block source c).lbrace.offset := by rw [Lower.block, ← hstart]; rfl

/-- With a comment inserted a source can still be read, and its functions come from trees alike. -/
theorem exists_alike_of_insertComment {path : String} {file : SourceFile}
    (h : readSource path source = .ok file) {toks : List Token} (htoks : tokens? source = some toks)
    {i : ℕ} {f : FunctionDecl} (hf : file.functions[i]? = some f)
    (hstart : (textStart source).offset ≤ place) (hgap : IsGap toks place)
    (hopen : ¬ HasOpenComment source toks place) (htext : IsCommentText text) :
    ∃ trees t t' above above' file', TreesOf source trees ∧ t ∈ trees ∧ t.isFunction = true ∧
      t.Alike (Displaced place (spacedComment text).length) t' ∧ f = Lower.function source above t ∧
      readSource path (insertComment source place text) = .ok file' ∧
      file'.functions[i]? = some (Lower.function (insertComment source place text) above' t') := by
  obtain ⟨_, trees, heq, hparse, hfile⟩ := exists_trees_of_readSource h
  obtain rfl := Option.some.inj (htoks.symm.trans heq)
  obtain ⟨toks', htoks', hdisplaced⟩ := tokens?_insertComment htoks htext hstart hgap hopen
  obtain ⟨trees', hparse', halike⟩ := parseFile?_alike (similarity_displaced _ _) hdisplaced hparse
  obtain ⟨file', hfile'⟩ :
      ∃ file', Lower.file (insertComment source place text) path trees' = .ok file' :=
    exists_file_of_alike (similarity_displaced _ _) halike hfile
  rw [(functions_of_file hfile).1] at hf
  obtain ⟨above, t, ht, hfunction⟩ := getElem?_functions hf
  obtain ⟨t', ht', htree⟩ := exists_getElem?_of_forall₂
    (forall₂_filter (fun _ _ hc ↦ by simp only [Tree.isFunction, hc.hasKind_eq]) halike) ht
  obtain ⟨above', hf'⟩ := exists_getElem?_functions ht' (insertComment source place text) []
  obtain ⟨hmem, hdeclares⟩ := mem_filter.mp (mem_of_getElem? ht)
  refine ⟨trees, t, t', above, above', file', treesOf_of_parseFile? htoks hparse, hmem, hdeclares,
    htree, hfunction, ?_, ?_⟩
  · rw [readSource, htoks', Option.bind_some, hparse']
    exact hfile'
  · rw [(functions_of_file hfile').1]
    exact hf'

end Source

/-! ## Metrics -/

/-- Bodies that differ only in positions have the same metrics. -/
theorem metrics_of_unplaced {b b' : Block} (h : b.relabel .unplaced = b'.relabel .unplaced) :
    b'.maxDepth.depth = b.maxDepth.depth ∧ b'.complexity = b.complexity ∧
      b'.conditionals.map Conditional.isGuard = b.conditionals.map Conditional.isGuard := by
  have hkeeps : Relabeling.unplaced.KeepsNames := ⟨Function.injective_id, rfl, rfl⟩
  refine ⟨?_, ?_, ?_⟩
  · calc b'.maxDepth.depth = (b'.relabel .unplaced).maxDepth.depth := by
          rw [b'.maxDepth_relabel hkeeps, Deepest.relabel]
      _ = (b.relabel .unplaced).maxDepth.depth := by rw [h]
      _ = b.maxDepth.depth := by rw [b.maxDepth_relabel hkeeps, Deepest.relabel]
  · rw [← b'.complexity_relabel hkeeps, ← h, b.complexity_relabel hkeeps]
  · rw [← b'.map_isGuard_relabel hkeeps, ← h, b.map_isGuard_relabel hkeeps]

open Source

/-- The body of a function of a source can be computed. -/
theorem exists_body_of_any {path : String} {source : ByteArray} {i : ℕ} {p : FunctionDecl → Block → Bool}
    (h : (readSource path source).toOption.any
      (fun file ↦ file.functions[i]?.any fun f ↦ f.body.any (p f)) = true) :
    ∃ file f b, readSource path source = .ok file ∧ file.functions[i]? = some f ∧ f.body = some b ∧
      p f b = true := by
  obtain ⟨file, hread, hfile⟩ := exists_of_readSource_any h
  obtain ⟨f, hf, hbody⟩ := Option.any_eq_true _ _ |>.mp hfile
  obtain ⟨b, hb, hp⟩ := Option.any_eq_true _ _ |>.mp hbody
  exact ⟨file, f, b, hread, hf, hb, hp⟩

/-- Whether the first function of a source has a body that opens before a place, with the given verdicts
on its conditionals. -/
def HasVerdicts (source : ByteArray) (place : ℕ) (verdicts : List Bool) : Prop :=
  ∃ (file : SourceFile) (f : FunctionDecl) (b : Block), readSource "p.go" source = .ok file ∧
    file.functions[0]? = some f ∧ f.body = some b ∧ b.lbrace.offset < place ∧
    b.conditionals.map Conditional.isGuard = verdicts

theorem hasVerdicts_of_any {source : ByteArray} {place : ℕ} {verdicts : List Bool}
    (h : (readSource "p.go" source).toOption.any (fun file ↦ file.functions[0]?.any fun f ↦
      f.body.any fun b ↦ decide (b.lbrace.offset < place ∧
        b.conditionals.map Conditional.isGuard = verdicts)) = true) :
    HasVerdicts source place verdicts := by
  obtain ⟨file, f, b, hread, hf, hb, hverdicts⟩ := exists_body_of_any h
  obtain ⟨hplace, hverdicts⟩ := of_decide_eq_true hverdicts
  exact ⟨file, f, b, hread, hf, hb, hplace, hverdicts⟩

end GoComplexity
