import GoComplexity.Proofs.Source.Extent
import GoComplexity.Proofs.Source.Layout
import GoComplexity.Source.File

/-!
# Functions of a source file

A source that can be read has well-formed trees, whose tokens lie one after the other on its bytes. Each
function of the file comes from one of the trees, in their order, and its body from a block in that tree.
-/

namespace GoComplexity.Source

open Syntax
open scoped List

/-- What is known of the trees of a source. -/
structure TreesOf (source : ByteArray) (trees : List Tree) : Prop where
  wellFormed : ∀ t ∈ trees, t.WellFormed
  laid : Laid Position.start source.toList (trees.flatMap Tree.tokens)
  /-- No token stands in front of the text. -/
  textStart_le : ∀ tok ∈ trees.flatMap Tree.tokens, (textStart source).offset ≤ tok.start.offset

/-- Each tree of a file has tokens of the file only. -/
theorem TreesOf.within {source : ByteArray} {trees : List Tree} (h : TreesOf source trees) {t : Tree}
    (ht : t ∈ trees) : t.Within (trees.flatMap Tree.tokens) where
  wellFormed := h.wellFormed t ht
  subset _ htoken := List.mem_flatMap.mpr ⟨t, ht, htoken⟩

/-- A source that can be read is split into tokens, which make the trees of its file. -/
theorem exists_trees_of_readSource {path : String} {source : ByteArray} {file : SourceFile}
    (h : readSource path source = .ok file) :
    ∃ toks trees, tokens? source = some toks ∧ parseFile? toks = some trees ∧
      Lower.file source path trees = .ok file := by
  rw [readSource] at h
  split at h
  · simp at h
  · rename_i trees htrees
    obtain ⟨toks, htoks, hparse⟩ := Option.bind_eq_some_iff.mp htrees
    exact ⟨toks, trees, htoks, hparse, h⟩

/-- A file takes its functions and imports from its trees, in order. -/
theorem functions_of_file {path : String} {source : ByteArray} {file : SourceFile} {trees : List Tree}
    (h : Lower.file source path trees = .ok file) :
    file.functions = Lower.functions source [] trees ∧
      file.imports = (Lower.ofKind .importDecl trees).flatMap (Lower.imports source) := by
  rw [Lower.file] at h
  split at h
  · simp at h
  · rw [← Except.ok.inj h]
    exact ⟨rfl, rfl⟩

theorem path_of_readSource {path : String} {source : ByteArray} {file : SourceFile}
    (h : readSource path source = .ok file) : file.path = path := by
  obtain ⟨toks, trees, -, -, hfile⟩ := exists_trees_of_readSource h
  rw [Lower.file] at hfile
  split at hfile
  · simp at hfile
  · rw [← Except.ok.inj hfile]

/-- Trees that were read from the tokens of a source lie in it in order. -/
theorem treesOf_of_parseFile? {source : ByteArray} {toks : List Token} {trees : List Tree}
    (htoks : tokens? source = some toks) (hparse : parseFile? toks = some trees) :
    TreesOf source trees := by
  obtain ⟨hwell, hrefines⟩ := parseFile?_spec hparse
  have htext : Laid (textStart source) _ (trees.flatMap Tree.tokens) :=
    (Laid.of_scan htoks).of_refines hrefines
  exact ⟨hwell, (Laid.of_tokens? htoks).of_refines hrefines, htext.offset_le⟩

/-- A source that can be read has trees, and its file is made of them. -/
theorem exists_treesOf_of_readSource {path : String} {source : ByteArray} {file : SourceFile}
    (h : readSource path source = .ok file) :
    ∃ trees, TreesOf source trees ∧ file.functions = Lower.functions source [] trees ∧
      file.imports = (Lower.ofKind .importDecl trees).flatMap (Lower.imports source) := by
  obtain ⟨toks, trees, htoks, hparse, hfile⟩ := exists_trees_of_readSource h
  exact ⟨trees, treesOf_of_parseFile? htoks hparse, functions_of_file hfile⟩

/-! ## Functions -/

/-- Whether a tree declares a function or method. -/
def Tree.isFunction (t : Tree) : Bool := t.hasKind .functionDecl || t.hasKind .methodDecl

/-- The functions of a file are those of its declarations, each with what stands above it. -/
theorem exists_functions_eq_map (source : ByteArray) (before : List Piece) (trees : List Tree) :
    ∃ decls : List (List Piece × Tree),
      Lower.functions source before trees = decls.map (fun d ↦ Lower.function source d.1 d.2) ∧
      decls.map Prod.snd = trees.filter Tree.isFunction := by
  induction trees generalizing before with
  | nil => exact ⟨[], rfl, rfl⟩
  | cons t trees ih =>
    obtain ⟨decls, hdecls, htrees⟩ := ih (.tree t :: (t.comments.reverse.map Piece.comment ++ before))
    rw [Lower.functions, List.filter_cons, ← htrees, hdecls]
    by_cases hfunction : t.isFunction = true
    · rw [if_pos hfunction]
      exact ⟨(_, t) :: decls, if_pos hfunction, rfl⟩
    · rw [if_neg hfunction]
      exact ⟨decls, if_neg hfunction, rfl⟩

theorem mem_of_map_snd_eq {trees : List Tree} {decls : List (List Piece × Tree)}
    (h : decls.map Prod.snd = trees.filter Tree.isFunction) {d : List Piece × Tree} (hd : d ∈ decls) :
    d.2 ∈ trees ∧ d.2.isFunction = true := by
  have hmem : d.2 ∈ trees.filter Tree.isFunction := h ▸ List.mem_map_of_mem hd
  exact List.mem_filter.mp hmem

/-- Each function of a file comes from a declaration among its trees. -/
theorem exists_of_mem_functions {source : ByteArray} {before : List Piece} {trees : List Tree}
    {f : FunctionDecl} (hf : f ∈ Lower.functions source before trees) :
    ∃ t ∈ trees, ∃ above, t.isFunction = true ∧ f = Lower.function source above t := by
  obtain ⟨decls, hdecls, htrees⟩ := exists_functions_eq_map source before trees
  rw [hdecls] at hf
  obtain ⟨⟨above, t⟩, hd, rfl⟩ := List.mem_map.mp hf
  obtain ⟨ht, hfunction⟩ := mem_of_map_snd_eq htrees hd
  exact ⟨t, ht, above, hfunction, rfl⟩

/-- Lists made from the functions keep to the order of lists made from the trees. -/
theorem flatMap_functions_sublist {β : Type} (source : ByteArray) {before : List Piece}
    {trees : List Tree} {g : FunctionDecl → List β} {k : Tree → List β}
    (hg : ∀ above, ∀ t ∈ trees, t.isFunction = true → g (Lower.function source above t) <+ k t) :
    (Lower.functions source before trees).flatMap g <+ trees.flatMap k := by
  obtain ⟨decls, hdecls, htrees⟩ := exists_functions_eq_map source before trees
  calc (Lower.functions source before trees).flatMap g
      <+ decls.flatMap fun d ↦ k d.2 := by
        rw [hdecls, List.flatMap_map]
        refine List.Sublist.flatMap_right decls fun d hd ↦ ?_
        obtain ⟨ht, hfunction⟩ := mem_of_map_snd_eq htrees hd
        exact hg d.1 d.2 ht hfunction
    _ = (trees.filter Tree.isFunction).flatMap k := by rw [← htrees, List.flatMap_map]
    _ <+ trees.flatMap k := List.filter_sublist.flatMap k

/-- A declaration of a function starts with its keyword and has a block for its body. -/
theorem Tree.exists_kind_of_isFunction {t : Tree} (h : t.isFunction = true) :
    ∃ k, t.kind? = some k ∧ k ∈ Grammar.opened ∧
      (.body, [.node .block]) ∈ Grammar.restrictions k := by
  rcases Bool.or_eq_true_iff.mp h with hkind | hkind
  · exact ⟨_, Tree.hasKind_iff.mp hkind, by decide, List.mem_singleton.mpr rfl⟩
  · exact ⟨_, Tree.hasKind_iff.mp hkind, by decide, List.mem_singleton.mpr rfl⟩

/-- The body of a function is a block behind its keyword. -/
theorem exists_body_of_function {source : ByteArray} {above : List Piece} {t : Tree} {b : Block}
    (ht : t.WellFormed) (hfunction : t.isFunction = true)
    (hbody : (Lower.function source above t).body = some b) :
    ∃ c ∈ t.children, c.kind? = some .block ∧ c.tokens <+ t.tokens.tail ∧
      b = Lower.block source c := by
  obtain ⟨c, hc, rfl⟩ := Option.map_eq_some_iff.mp hbody
  obtain ⟨k, hkind, hopened, hrestriction⟩ := Tree.exists_kind_of_isFunction hfunction
  obtain ⟨m, hm, hfits⟩ := ht.fits_of_child? hkind hrestriction hc
  rw [List.mem_singleton.mp hm] at hfits
  refine ⟨c, Tree.mem_children_of_child? hc, Mold.kind?_of_fits_node hfits, ?_, rfl⟩
  have htokens := ht.flatMap_tokens_sublist_tail_of_opened hkind hopened
    (t.child?_toList_sublist .body) (View.exists_rank_of_child? (by decide))
  simpa [hc] using htokens

/-- The body of a function of a file comes from a block in the trees of the source. -/
theorem exists_block_of_readSource {path : String} {source : ByteArray} {file : SourceFile}
    (h : readSource path source = .ok file) {f : FunctionDecl} (hf : f ∈ file.functions) {b : Block}
    (hb : b ∈ f.body) :
    ∃ toks c, Laid Position.start source.toList toks ∧ c.Within toks ∧ b = Lower.block source c := by
  obtain ⟨trees, htrees, hfunctions, -⟩ := exists_treesOf_of_readSource h
  rw [hfunctions] at hf
  obtain ⟨t, ht, above, hfunction, rfl⟩ := exists_of_mem_functions hf
  obtain ⟨c, hc, -, -, rfl⟩ := exists_body_of_function (htrees.wellFormed t ht) hfunction hb
  exact ⟨_, c, htrees.laid, (htrees.within ht).of_mem_children hc, rfl⟩

/-- Whether a source can be read can be computed. -/
theorem exists_of_readSource_any {path : String} {source : ByteArray} {p : SourceFile → Bool}
    (h : (readSource path source).toOption.any p = true) :
    ∃ file, readSource path source = .ok file ∧ p file = true := by
  cases hread : readSource path source with
  | error => simp [hread, Except.toOption] at h
  | ok file => exact ⟨file, rfl, by simpa [hread, Except.toOption] using h⟩

end GoComplexity.Source
