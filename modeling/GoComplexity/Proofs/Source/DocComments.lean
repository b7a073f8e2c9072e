import GoComplexity.Metric.Override
import GoComplexity.Proofs.Source.Files
import GoComplexity.Proofs.Source.Scanning
import Mathlib.Data.List.Chain

/-!
# Doc comments

The doc comment of a declaration is the longest run of comments that ends at it: no blank line inside or
behind it, and no code before it on its first line. Reading a file walks backwards from the keyword over
the comments between it and the token before. It looks for code before a comment only where no other
comment stands in between, so of several comments behind code on one line it leaves out the first only.
-/

namespace GoComplexity.Source

open Syntax

/-! ## Runs -/

/-- A run at the end of the comments `all` that reaches line `line` without a blank line and does not
start with a comment that is barred. -/
structure Attached (line : ℕ) (barred : Comment → Prop) (all run : List Comment) : Prop where
  atEnd : run <:+ all
  joined : run.IsChain fun c d ↦ d.start.line ≤ c.stop.line + 1
  reaches : ∀ c ∈ run.getLast?, line ≤ c.stop.line + 1
  notBarred : ∀ c ∈ run.head?, ¬ barred c

/-- Whether a list is a longest one with a property. -/
def IsLongest {α : Type} (P : List α → Prop) (xs : List α) : Prop :=
  P xs ∧ ∀ ys, P ys → ys.length ≤ xs.length

/-- Whether a comment starts on a line where one of the tokens before it ends. -/
def TrailsCode (before : List Token) (c : Comment) : Prop := ∃ t ∈ before, t.stop.line = c.start.line

instance (before : List Token) : DecidablePred (TrailsCode before) :=
  fun c ↦ inferInstanceAs (Decidable (∃ t ∈ before, t.stop.line = c.start.line))

variable {line : ℕ} {barred : Comment → Prop} {all run : List Comment}

theorem attached_nil (line : ℕ) (barred : Comment → Prop) (all : List Comment) :
    Attached line barred all [] :=
  ⟨List.nil_suffix, .nil, by simp, by simp⟩

/-- A run that reaches the next comment grows by it. -/
theorem Attached.concat {c : Comment} (h : Attached c.start.line barred all run)
    (hreaches : line ≤ c.stop.line + 1) (hbarred : ¬ barred c) :
    Attached line barred (all ++ [c]) (run ++ [c]) where
  atEnd := List.suffix_concat_iff.mpr (Or.inr ⟨run, rfl, h.atEnd⟩)
  joined := by
    refine List.isChain_append.mpr ⟨h.joined, .singleton c, ?_⟩
    intro d hd e he
    rw [List.head?_singleton, Option.mem_some] at he
    subst he
    exact h.reaches d hd
  reaches := by simpa using hreaches
  notBarred := by
    cases run with
    | nil => simpa using hbarred
    | cons d run => exact h.notBarred

/-- Without its last comment a run reaches that comment. -/
theorem Attached.of_concat {c : Comment} (h : Attached line barred (all ++ [c]) (run ++ [c])) :
    Attached c.start.line barred all run where
  atEnd := by
    rcases List.suffix_concat_iff.mp h.atEnd with hnil | ⟨run', heq, hsuffix⟩
    · simp at hnil
    · rwa [(List.append_inj' heq rfl).1]
  joined := (List.isChain_append.mp h.joined).1
  reaches d hd := (List.isChain_append.mp h.joined).2.2 d hd c (by simp)
  notBarred := by
    cases run with
    | nil => simp
    | cons d run => exact h.notBarred

/-- Code before a comment is seen only if no other comment stands in between. -/
theorem trails_append_iff {rest : List Piece} {c : Comment}
    (hfirst : ∀ d ∈ (all ++ [c]).head?, (Lower.trails d rest = true ↔ barred d))
    (hlater : ∀ d ∈ (all ++ [c]).tail, ¬ barred d) :
    Lower.trails c (all.reverse.map Piece.comment ++ rest) = true ↔ barred c := by
  cases all using List.reverseRecOn with
  | nil => exact hfirst c (by simp)
  | append_singleton all d =>
    rw [List.reverse_append, List.reverse_singleton, List.singleton_append, List.map_cons]
    have hbarred : ¬ barred c := by
      apply hlater
      cases all <;> simp
    exact iff_of_false (by simp [Lower.trails]) hbarred

/-- Reading backwards finds the longest run, if the only comment that can be barred is the first one and
it is so if it trails what stands before. -/
theorem isLongest_reverse_docRun {rest : List Piece}
    (hrest : ∀ c more, rest ≠ .comment c :: more)
    (hfirst : ∀ c ∈ all.head?, (Lower.trails c rest = true ↔ barred c))
    (hlater : ∀ c ∈ all.tail, ¬ barred c) :
    IsLongest (Attached line barred all)
      (Lower.docRun line (all.reverse.map Piece.comment ++ rest)).reverse := by
  induction all using List.reverseRecOn generalizing line with
  | nil =>
    have hnone : Lower.docRun line ([].reverse.map Piece.comment ++ rest) = [] := by
      rw [List.reverse_nil, List.map_nil, List.nil_append, Lower.docRun.eq_def]
      split
      · exact absurd rfl (hrest _ _)
      · rfl
    rw [hnone]
    refine ⟨attached_nil line barred [], ?_⟩
    intro other hother
    rw [List.suffix_nil.mp hother.atEnd]
    exact Nat.zero_le _
  | append_singleton all c ih =>
    have htrails := trails_append_iff hfirst hlater
    rw [List.reverse_append, List.reverse_singleton, List.singleton_append, List.map_cons,
      List.cons_append, Lower.docRun]
    split_ifs with hstop
    · refine ⟨attached_nil line barred _, ?_⟩
      intro other hother
      rcases List.suffix_concat_iff.mp hother.atEnd with rfl | ⟨other, rfl, hsuffix⟩
      · exact Nat.zero_le _
      · have hreaches : line ≤ c.stop.line + 1 := hother.reaches c (by simp)
        have hbarred : barred c := by
          rw [Bool.or_eq_true, decide_eq_true_iff] at hstop
          exact htrails.mp (hstop.resolve_left (by omega))
        -- a comment that is barred is the first of all
        have hall : all = [] := by
          cases all with
          | nil => rfl
          | cons d all => exact absurd hbarred (hlater c (by simp))
        subst hall
        rw [List.suffix_nil.mp hsuffix] at hother
        exact absurd hbarred (hother.notBarred c rfl)
    · rw [Bool.or_eq_true, decide_eq_true_iff, htrails, not_or, Nat.not_lt] at hstop
      have hfirst' : ∀ d ∈ all.head?, (Lower.trails d rest = true ↔ barred d) := by
        cases all with
        | nil => simp
        | cons d all => exact hfirst
      have hlater' : ∀ d ∈ all.tail, ¬ barred d := by
        cases all with
        | nil => simp
        | cons d all => exact fun e he ↦ hlater e (List.mem_append_left [c] he)
      obtain ⟨hattached, hlongest⟩ :
          IsLongest (Attached c.start.line barred all) _ := ih hfirst' hlater'
      rw [List.reverse_cons]
      refine ⟨hattached.concat hstop.1 hstop.2, ?_⟩
      intro other hother
      rcases List.suffix_concat_iff.mp hother.atEnd with rfl | ⟨other, rfl, -⟩
      · exact Nat.zero_le _
      · rw [List.length_append, List.length_append]
        exact Nat.add_le_add_right (hlongest other hother.of_concat) 1

/-! ## The keyword of a declaration -/

theorem endOf_of_cut {toks toks' : List Token} (h : Cut toks toks') (pos : Position) :
    endOf pos toks' = endOf pos toks := by
  cases h with
  | intro before after => simp [endOf_append, Token.halves]

/-- Marks that are taken apart end where the whole mark did. -/
theorem endOf_of_refines {toks toks' : List Token} (h : Refines toks toks') (pos : Position) :
    endOf pos toks' = endOf pos toks := by
  induction h with
  | refl => rfl
  | tail _ hcut ih => rw [endOf_of_cut hcut, ih]

theorem Refines.eq_nil_iff {toks toks' : List Token} (h : Refines toks toks') :
    toks = [] ↔ toks' = [] := by
  induction h with
  | refl => rfl
  | tail _ hcut ih =>
    rw [ih]
    cases hcut with
    | intro before after => simp [Token.halves]

/-- An element outside a block of a list stands before the block or behind it. -/
theorem split_around_block {α : Type} {x : α} {xs ys front block back : List α}
    (h : xs ++ x :: ys = front ++ (block ++ back)) (hx : x ∉ block) :
    (∃ mid, front = xs ++ x :: mid ∧ ys = mid ++ (block ++ back)) ∨
      ∃ mid, xs = front ++ (block ++ mid) ∧ back = mid ++ x :: ys := by
  have hbehind (pre : List α) (hpre : pre ++ x :: ys = block ++ back) :
      ∃ mid, pre = block ++ mid ∧ back = mid ++ x :: ys := by
    rcases List.append_eq_append_iff.mp hpre with ⟨mid, hblock, hmid⟩ | ⟨mid, hblock, hmid⟩
    · cases mid with
      | nil => exact ⟨[], by simpa using hblock.symm, hmid.symm⟩
      | cons y mid =>
        rw [← (List.cons.inj hmid).1] at hblock
        exact absurd (hblock ▸ List.mem_append_right pre List.mem_cons_self) hx
    · exact ⟨mid, hblock, hmid⟩
  rcases List.append_eq_append_iff.mp h with ⟨mid, rfl, hmid⟩ | ⟨mid, rfl, hmid⟩
  · cases mid with
    | nil =>
      obtain ⟨mid, hnil, hback⟩ := hbehind [] hmid
      exact Or.inr ⟨mid, by simp [← hnil], hback⟩
    | cons y mid =>
      obtain ⟨rfl, rfl⟩ := List.cons.inj hmid
      exact Or.inl ⟨mid, rfl, rfl⟩
  · obtain ⟨mid, rfl, hback⟩ := hbehind _ hmid.symm
    exact Or.inr ⟨mid, rfl, hback⟩

/-- Words are not cut, so a word splits the tokens from before at the same place. -/
theorem Cut.exists_of_word {toks before' after' : List Token} {t : Token}
    (h : Cut toks (before' ++ t :: after')) {w : String} (hword : t.kind = .word w) :
    ∃ before after, toks = before ++ t :: after ∧ Refines before before' := by
  generalize htoks' : before' ++ t :: after' = toks' at h
  cases h with
  | @intro front back u a b hkind ha hb =>
    have hmark : t ∉ u.halves a b := by
      intro ht
      rcases List.mem_pair.mp ht with rfl | rfl <;> cases hword
    rcases split_around_block htoks' hmark with ⟨mid, rfl, -⟩ | ⟨mid, rfl, rfl⟩
    · exact ⟨before', mid ++ u :: back, by simp, .refl⟩
    · exact ⟨front ++ u :: mid, after', by simp, .single (.intro front mid hkind ha hb)⟩

/-- A word is never taken apart, so it is a token of the scanner with the same tokens around it. -/
theorem Refines.exists_of_word {toks before' after' : List Token} {t : Token}
    (h : Refines toks (before' ++ t :: after')) {w : String} (hword : t.kind = .word w) :
    ∃ before after, toks = before ++ t :: after ∧ Refines before before' := by
  generalize htoks' : before' ++ t :: after' = toks' at h
  induction h generalizing before' after' with
  | refl => exact ⟨before', after', htoks'.symm, .refl⟩
  | tail _ hcut ih =>
    subst htoks'
    obtain ⟨before, after, rfl, hbefore⟩ := hcut.exists_of_word hword
    obtain ⟨first, rest, rfl, hfirst⟩ := ih rfl
    exact ⟨first, rest, rfl, hfirst.trans hbefore⟩

/-- A tree ends where the last of its tokens ends. -/
theorem Tree.stop_eq_endOf {t : Tree} (h : t.tokens ≠ []) (pos : Position) :
    t.stop = endOf pos t.tokens := by
  rw [Tree.stop, Tree.last?_eq_getLast?, endOf, List.getLast?_eq_some_getLast h]
  rfl

/-- A declaration starts with the keyword. -/
theorem Tree.exists_func_of_isFunction {t : Tree} (h : t.WellFormed) (hfunction : t.isFunction = true) :
    ∃ tok rest, t.tokens = tok :: rest ∧ tok.kind = .word "func" := by
  obtain ⟨k, hkind, hopener⟩ :
      ∃ k, t.kind? = some k ∧ Grammar.openers k = some [Grammar.keywordLook "func"] := by
    rcases Bool.or_eq_true_iff.mp hfunction with hkind | hkind
    · exact ⟨_, Tree.hasKind_iff.mp hkind, rfl⟩
    · exact ⟨_, Tree.hasKind_iff.mp hkind, rfl⟩
  obtain ⟨c, rest, hchildren, l, hl, -, hfits⟩ := (h.content hkind).opens _ hopener
  rw [List.mem_singleton.mp hl] at hfits
  rw [Tree.tokens_eq_flatMap_children hkind, hchildren, List.flatMap_cons]
  cases c with
  | node => exact hfits.elim
  | leaf role tok =>
    refine ⟨tok, rest.flatMap Tree.tokens, rfl, ?_⟩
    have hadmits : (TokenClass.keyword "func").admits tok.kind = true := hfits
    cases hword : tok.kind with
    | word w =>
      rw [hword] at hadmits
      rw [beq_iff_eq.mp hadmits]
    | mark | lit => simp [hword, TokenClass.admits] at hadmits

/-- Each function of a file is read with the comments before it and the declaration before those. -/
theorem exists_split_of_mem_functions {source : ByteArray} {before : List Piece} {trees : List Tree}
    {f : FunctionDecl} (hf : f ∈ Lower.functions source before trees) :
    ∃ front t back rest, trees = front ++ t :: back ∧ t.isFunction = true ∧
      f = Lower.function source (t.comments.reverse.map Piece.comment ++ rest) t ∧
      (front = [] ∧ rest = before ∨ ∃ front' last more, front = front' ++ [last] ∧
        rest = .tree last :: more) := by
  induction trees generalizing before with
  | nil => simp [Lower.functions] at hf
  | cons u trees ih =>
    rw [Lower.functions] at hf
    have hcases : u.isFunction = true ∧
          f = Lower.function source (u.comments.reverse.map Piece.comment ++ before) u ∨
        f ∈ Lower.functions source
          (.tree u :: (u.comments.reverse.map Piece.comment ++ before)) trees := by
      split_ifs at hf with hfunction
      · exact (List.mem_cons.mp hf).imp (fun heq ↦ ⟨hfunction, heq⟩) id
      · exact Or.inr hf
    rcases hcases with ⟨hfunction, heq⟩ | hf
    · exact ⟨[], u, trees, before, rfl, hfunction, heq, Or.inl ⟨rfl, rfl⟩⟩
    · obtain ⟨front, t, back, rest, rfl, hfunction, heq, hrest⟩ := ih hf
      refine ⟨u :: front, t, back, rest, rfl, hfunction, heq, Or.inr ?_⟩
      rcases hrest with ⟨rfl, rfl⟩ | ⟨front', last, more, rfl, rfl⟩
      · exact ⟨[], u, _, rfl, rfl⟩
      · exact ⟨u :: front', last, more, rfl, rfl⟩

/-- A function is declared at a `func` keyword of the source, and its doc comment is read backwards from
there: over the comments of the keyword, and with the place where the code before them ends. -/
theorem exists_keyword_of_readSource {path : String} {source : ByteArray} {file : SourceFile}
    (h : readSource path source = .ok file) {f : FunctionDecl} (hf : f ∈ file.functions) :
    ∃ before tok after rest, tokens? source = some (before ++ tok :: after) ∧
      tok.kind = .word "func" ∧ tok.start = f.pos ∧
      f.doc = ((Lower.docRun f.pos.line (tok.comments.reverse.map Piece.comment ++ rest)).reverse).map
        (Comment.text source) ∧
      (∀ c more, rest ≠ .comment c :: more) ∧
      ∀ c, Lower.trails c rest = true ↔
        before ≠ [] ∧ (endOf (textStart source) before).line = c.start.line := by
  obtain ⟨toks, trees, htoks, hparse, hfile⟩ := exists_trees_of_readSource h
  obtain ⟨hwell, hrefines⟩ := parseFile?_spec hparse
  rw [(functions_of_file hfile).1] at hf
  obtain ⟨front, t, back, rest, rfl, hfunction, rfl, hrest⟩ := exists_split_of_mem_functions hf
  obtain ⟨tok, more, htokens, hword⟩ := Tree.exists_func_of_isFunction (hwell t (by simp)) hfunction
  have hstart : t.start = tok.start := Tree.start_of_tokens_eq_cons htokens
  have hcomments : t.comments = tok.comments := by
    rw [Tree.comments, Tree.first?_eq_head?, htokens]
    rfl
  rw [List.flatMap_append, List.flatMap_cons, htokens, List.cons_append] at hrefines
  obtain ⟨before, after, rfl, hbefore⟩ := hrefines.exists_of_word hword
  have hend := endOf_of_refines hbefore (textStart source)
  refine ⟨before, tok, after, rest, htoks, hword, hstart.symm, ?_, ?_, ?_⟩
  · rw [← hcomments]
    rfl
  · rcases hrest with ⟨-, rfl⟩ | ⟨_, _, _, -, rfl⟩ <;> simp
  · intro c
    rcases hrest with ⟨rfl, rfl⟩ | ⟨front, last, more, rfl, rfl⟩
    · have hnil : before = [] := hbefore.eq_nil_iff.mpr rfl
      simp [Lower.trails, hnil]
    · have hlast : last.tokens ≠ [] := (hwell last (by simp)).tokens_ne_nil
      have hne : before ≠ [] := by
        rw [Ne, hbefore.eq_nil_iff, List.flatMap_append, List.append_eq_nil_iff]
        simp [hlast]
      rw [List.flatMap_append, endOf_append, List.flatMap_singleton,
        ← Tree.stop_eq_endOf hlast] at hend
      rw [Lower.trails, beq_iff_eq, hend, and_iff_right hne]

variable {before after : List Token} {tok : Token}

/-- A comment trails code exactly if it starts on the line where the last token before it ends. -/
theorem trailsCode_iff {source : ByteArray} (h : tokens? source = some (before ++ tok :: after))
    {c : Comment} (hc : c ∈ tok.comments) :
    TrailsCode before c ↔ before ≠ [] ∧ (endOf (textStart source) before).line = c.start.line := by
  constructor
  · rintro ⟨t, ht, hline⟩
    refine ⟨List.ne_nil_of_mem ht, ?_⟩
    have hstop := ((Scans.of_tokens? h).stop_le_endOf.2 t ht).line
    have hstart := ((Scans.skips_of_tokens? h).le_of_mem hc).1.line
    apply Nat.le_antisymm hstart
    rw [← hline]
    exact hstop
  · rintro ⟨hne, hline⟩
    refine ⟨before.getLast hne, List.getLast_mem hne, ?_⟩
    rwa [endOf, List.getLast?_eq_some_getLast hne] at hline

/-- The comments from one that ends right above a line on form a run, if that one is not barred. -/
theorem attached_of_ends_above {pos stop : Position} {bytes rest : List UInt8} {newline : Bool}
    {front back : List Comment} {c : Comment}
    (h : Skips pos bytes newline (front ++ c :: back) stop rest)
    (hstop : stop.line ≤ c.stop.line + 1) (hbarred : ¬ barred c) :
    Attached stop.line barred (front ++ c :: back) (c :: back) := by
  have hlines : ∀ d ∈ c :: back, d.start.line ≤ stop.line ∧ c.stop.line ≤ d.stop.line := by
    intro d hd
    obtain ⟨-, hself, hend⟩ := h.le_of_mem (List.mem_append_right front hd)
    refine ⟨Nat.le_trans hself.line hend.line, ?_⟩
    rcases List.mem_cons.mp hd with rfl | hback
    · exact Nat.le_refl _
    · have hpairwise := (List.pairwise_append.mp h.pairwise_comments).2.1
      exact Nat.le_trans (List.rel_of_pairwise_cons hpairwise hback).2.line hself.line
  refine ⟨List.suffix_append _ _, List.Pairwise.isChain ?_, ?_, by simpa using hbarred⟩
  · apply List.pairwise_of_forall_mem_list
    intro d hd e he
    have := (hlines d hd).2
    have := (hlines e he).1
    omega
  · intro d hd
    have := (hlines d (List.mem_of_getLast? hd)).2
    omega

/-- Among comments in order no later one is the first one. -/
theorem head?_ne_of_mem_tail {cs : List Comment} {c : Comment}
    (h : cs.Pairwise fun c d ↦ c.start.offset < d.start.offset ∧ c.stop.Le d.start)
    (hc : c ∈ cs.tail) : cs.head? ≠ some c := by
  cases cs with
  | nil => simp at hc
  | cons d cs =>
    intro hhead
    rw [List.head?_cons, Option.some.injEq] at hhead
    subst hhead
    exact Nat.lt_irrefl _ (List.rel_of_pairwise_cons h hc).1

/-- The longest run ends with every other run. -/
theorem exists_eq_append_of_isLongest {front other : List Comment}
    (h : IsLongest (Attached line barred (front ++ other)) run)
    (hother : Attached line barred (front ++ other) other) :
    ∃ front', run = front' ++ other ∧ ∀ c ∈ front', c ∈ front := by
  obtain ⟨front', rfl⟩ :=
    List.suffix_of_suffix_length_le hother.atEnd h.1.atEnd (h.2 other hother)
  refine ⟨front', rfl, ?_⟩
  intro c hc
  obtain ⟨pre, hpre⟩ := h.1.atEnd
  rw [← List.append_assoc] at hpre
  rw [← List.append_cancel_right hpre]
  exact List.mem_append_right pre hc

/-! ## Directives in a doc comment -/

/-- Whether a line sets thresholds of a metric. -/
def IsDirective (metric line : String) : Prop :=
  (Text.after? (Override.lead metric) (Text.trim line.toList)).isSome = true

/-- The first directive for a metric decides. -/
theorem resolve_of_first {metric line : String} {front back : List String}
    (hfront : ∀ other ∈ front, ¬ IsDirective metric other) (hline : IsDirective metric line)
    (t : Thresholds) :
    Override.resolve (front ++ line :: back) metric t = Override.resolve [line] metric t := by
  have hnone : Override.find? front metric = none := by
    rw [Override.find?, List.findSome?_eq_none_iff]
    intro other hother
    simpa [IsDirective] using hfront other hother
  obtain ⟨directive, hdirective⟩ := Option.isSome_iff_exists.mp hline
  have hfind (rest : List String) : Override.find? (line :: rest) metric = some directive := by
    rw [Override.find?, List.findSome?_cons, hdirective]
  have happend : Override.find? (front ++ line :: back) metric = some directive := by
    rw [Override.find?, List.findSome?_append]
    change (Override.find? front metric).or (Override.find? (line :: back) metric) = _
    rw [hnone, hfind, Option.none_or]
  rw [Override.resolve, happend, Override.resolve, hfind]

/-! ## Doc comments of a file -/

end GoComplexity.Source
