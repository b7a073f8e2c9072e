import GoComplexity.Proofs.Source.Reading
import GoComplexity.Source.Lexer
import Mathlib.Data.List.Induction
import Mathlib.Data.List.TakeWhile

/-!
# Tokens on the bytes of a source

A position belongs to a place in the bytes of a source: its line counts the line feeds before the place
and its column the bytes since the last one. The tokens of a source lie one after the other on disjoint
pieces of it, each at the position of its first byte and spelled by its piece. Cutting a mark in two
keeps all this.
-/

namespace GoComplexity

open Syntax

/-! ## Bytes -/

namespace Text

theorem toList_loop_eq (bytes : ByteArray) (i : ℕ) (read : List UInt8) :
    ByteArray.toList.loop bytes i read = read.reverse ++ bytes.data.toList.drop i := by
  fun_induction ByteArray.toList.loop bytes i read with
  | case1 i read hlt ih =>
    have hi : i < bytes.data.toList.length := by simpa using hlt
    rw [ih, List.drop_eq_getElem_cons hi]
    simp [ByteArray.get!, hlt]
  | case2 i read hge =>
    rw [List.drop_eq_nil_of_le (by simpa using Nat.le_of_not_lt hge), List.append_nil]

/-- The bytes of a source as a list, as the array has them. -/
theorem toList_eq_data (bytes : ByteArray) : bytes.toList = bytes.data.toList := by
  rw [ByteArray.toList, toList_loop_eq, List.reverse_nil, List.nil_append, List.drop_zero]

/-- The UTF-8 bytes of a text. -/
def utf8 (text : String) : List UInt8 := text.toUTF8.toList

theorem utf8_append (a b : String) : utf8 (a ++ b) = utf8 a ++ utf8 b := by
  simp only [utf8, String.toUTF8, String.toByteArray_append, toList_eq_data, ByteArray.data_append,
    Array.toList_append]

theorem length_utf8 (text : String) : (utf8 text).length = text.utf8ByteSize := by
  rw [utf8, toList_eq_data, Array.length_toList]
  rfl

theorem utf8_ne_nil {text : String} (h : text ≠ "") : utf8 text ≠ [] := by
  intro hnil
  apply h
  have hsize : text.utf8ByteSize = 0 := by rw [← length_utf8, hnil, List.length_nil]
  simpa using hsize

/-- Bytes that decode to a text are its UTF-8 bytes. -/
theorem eq_utf8_of_decode? {bytes : List UInt8} {text : String}
    (h : decode? ⟨bytes.toArray⟩ = some text) : bytes = utf8 text := by
  rw [decode?, String.fromUTF8?] at h
  split_ifs at h
  rw [← Option.some.inj h, utf8, toList_eq_data]
  rfl

end Text

/-! ## Positions -/

namespace Syntax.Position

/-- Whether a position belongs to a place in some bytes. -/
structure IsAt (p : Position) (bytes : List UInt8) : Prop where
  offset : p.offset ≤ bytes.length
  /-- The line counts the line feeds before the place. -/
  line : p.line = 1 + (bytes.take p.offset).count 10
  /-- The column counts the bytes since the last line feed. -/
  column : p.column = 1 + ((bytes.take p.offset).reverse.takeWhile (· != 10)).length

theorem advanceBy_append (p : Position) (a b : List UInt8) :
    p.advanceBy (a ++ b) = (p.advanceBy a).advanceBy b :=
  List.foldl_append

/-- The position behind a text: its line feeds, what follows the last one, and its length. -/
theorem start_advanceBy (bytes : List UInt8) :
    start.advanceBy bytes =
      ⟨1 + bytes.count 10, 1 + (bytes.reverse.takeWhile (· != 10)).length, bytes.length⟩ := by
  induction bytes using List.reverseRecOn with
  | nil => rfl
  | append_singleton bytes b ih =>
    rw [advanceBy_append, ih]
    by_cases hb : b = 10
    · subst hb
      simp [advanceBy, advance, Nat.add_assoc]
    · simp [advanceBy, advance, hb, Nat.add_comm]

/-- Advancing over a text leads to the place behind it. -/
theorem isAt_advanceBy (before after : List UInt8) :
    (start.advanceBy before).IsAt (before ++ after) := by
  rw [start_advanceBy]
  constructor <;> simp

theorem offset_advanceBy (p : Position) (bytes : List UInt8) :
    (p.advanceBy bytes).offset = p.offset + bytes.length := by
  induction bytes generalizing p with
  | nil => rfl
  | cons b bytes ih =>
    rw [List.length_cons, ← Nat.add_assoc, Nat.add_right_comm]
    have hone : (p.advance b).offset = p.offset + 1 := by
      rw [advance]
      split <;> rfl
    exact (ih (p.advance b)).trans (by rw [hone])

/-- A later place has another line or another column. -/
theorem IsAt.ne_of_offset_lt {p q : Position} {bytes : List UInt8} (hp : p.IsAt bytes)
    (hq : q.IsAt bytes) (h : p.offset < q.offset) : p.line ≠ q.line ∨ p.column ≠ q.column := by
  obtain ⟨between, hbetween⟩ : ∃ between, bytes.take q.offset = bytes.take p.offset ++ between := by
    have hsplit := List.take_append_drop p.offset (bytes.take q.offset)
    rw [List.take_take, Nat.min_eq_left (Nat.le_of_lt h)] at hsplit
    exact ⟨_, hsplit.symm⟩
  have hlength : between.length = q.offset - p.offset := by
    have := congrArg List.length hbetween
    simp only [List.length_take, List.length_append, Nat.min_eq_left hq.offset,
      Nat.min_eq_left hp.offset] at this
    omega
  by_cases hfeed : 10 ∈ between
  · left
    have := List.count_pos_iff.mpr hfeed
    rw [hp.line, hq.line, hbetween, List.count_append]
    omega
  · right
    have hall (b : UInt8) (hb : b ∈ between.reverse) : (b != 10) = true :=
      bne_iff_ne.mpr fun heq ↦ hfeed (heq ▸ List.mem_reverse.mp hb)
    rw [hp.column, hq.column, hbetween, List.reverse_append, List.takeWhile_append_of_pos hall]
    simp only [List.length_append, List.length_reverse]
    omega

/-- Line and column determine the place. -/
theorem IsAt.offset_eq {p q : Position} {bytes : List UInt8} (hp : p.IsAt bytes)
    (hq : q.IsAt bytes) (hline : p.line = q.line) (hcolumn : p.column = q.column) :
    p.offset = q.offset := by
  rcases Nat.lt_trichotomy p.offset q.offset with hlt | heq | hgt
  · exact absurd (hp.ne_of_offset_lt hq hlt) (by simp [hline, hcolumn])
  · exact heq
  · exact absurd (hq.ne_of_offset_lt hp hgt) (by simp [hline, hcolumn])

end Syntax.Position

namespace Source

open Text

/-! ## Lexemes -/

/-- Whether some bytes spell a token. -/
def TokenKind.IsSpelledBy : TokenKind → List UInt8 → Prop
  | .word w, text => textOf ⟨text.toArray⟩ = w
  | .mark m, text => text = utf8 m
  | .lit _, _ => True

theorem pos_of_decodeChar? {bytes : List UInt8} {c : Char} {width : ℕ}
    (h : decodeChar? bytes = some (c, width)) : 0 < width := by
  rw [decodeChar?.eq_def] at h
  repeat' split at h
  all_goals
    simp only [Option.pure_def, Option.bind_eq_bind, Option.bind_eq_some_iff, Option.some.injEq,
      Prod.mk.injEq, reduceCtorEq] at h
  all_goals grind

theorem pos_of_wordLength? {bytes : List UInt8} {n : ℕ} (h : wordLength? bytes = some n) :
    0 < n := by
  simp only [wordLength?, Option.bind_eq_bind, Option.bind_eq_some_iff] at h
  obtain ⟨⟨c, width⟩, hdecode, h⟩ := h
  have := pos_of_decodeChar? hdecode
  split_ifs at h
  have := Option.some.inj h
  omega

/-- A mark is spelled by the bytes it was read from. -/
theorem isSpelledBy_of_mark? {bytes : List UInt8} {kind : TokenKind} {n : ℕ}
    (h : mark? bytes = some (kind, n)) : 0 < n ∧ kind.IsSpelledBy (bytes.take n) := by
  obtain ⟨m, hm, heq⟩ := Option.map_eq_some_iff.mp h
  obtain ⟨rfl, rfl⟩ := Prod.mk.inj heq
  have hsizes : ∀ m ∈ marks, 0 < m.utf8ByteSize := by decide +kernel
  have hstarts : startsWith bytes m = true := List.find?_some hm
  obtain ⟨rest, hrest⟩ := List.isPrefixOf_iff_prefix.mp hstarts
  refine ⟨hsizes m (List.mem_of_find?_eq_some hm), ?_⟩
  rw [TokenKind.IsSpelledBy, ← hrest, ← length_utf8]
  exact List.take_left

/-- The better of two numbers is a literal if both are. -/
theorem exists_lit_ite {a b : TokenKind × ℕ} (ha : ∃ lit, a.1 = .lit lit) (hb : ∃ lit, b.1 = .lit lit) :
    ∃ lit, (if a.2 < b.2 then b else a).1 = .lit lit := by
  split
  · exact hb
  · exact ha

/-- A number is spelled by the bytes it was read from. -/
theorem isSpelledBy_of_number? {bytes : List UInt8} {kind : TokenKind} {n : ℕ}
    (h : number? bytes = some (kind, n)) : 0 < n ∧ kind.IsSpelledBy (bytes.take n) := by
  unfold number? at h
  extract_lets ints floats imags best at h
  split_ifs at h with hzero
  rw [Option.some.injEq] at h
  obtain ⟨lit, hlit⟩ : ∃ lit, best.1 = .lit lit :=
    exists_lit_ite (exists_lit_ite ⟨_, rfl⟩ ⟨_, rfl⟩) ⟨_, rfl⟩
  rw [h] at hlit hzero
  refine ⟨Nat.pos_of_ne_zero hzero, ?_⟩
  change kind = .lit lit at hlit
  rw [hlit]
  trivial

theorem isSpelledBy_lit {lit : LitKind} {stop : Option ℕ} {kind : TokenKind} {n : ℕ}
    (h : stop.map (fun n ↦ (TokenKind.lit lit, n + 1)) = some (kind, n)) (text : List UInt8) :
    0 < n ∧ kind.IsSpelledBy text := by
  obtain ⟨m, -, heq⟩ := Option.map_eq_some_iff.mp h
  obtain ⟨rfl, rfl⟩ := Prod.mk.inj heq
  exact ⟨Nat.succ_pos m, trivial⟩

/-- A lexeme takes some bytes, and they spell it. -/
theorem isSpelledBy_of_lexeme? {bytes : List UInt8} {kind : TokenKind} {n : ℕ}
    (h : lexeme? bytes = some (kind, n)) : 0 < n ∧ kind.IsSpelledBy (bytes.take n) := by
  revert h
  fun_cases lexeme? bytes with
  | case1 m _ hword =>
    intro h
    obtain ⟨rfl, rfl⟩ := Prod.mk.inj (Option.some.inj h)
    exact ⟨pos_of_wordLength? hword, rfl⟩
  | case2 => exact fun h ↦ isSpelledBy_lit h _
  | case3 => exact fun h ↦ isSpelledBy_lit h _
  | case4 => exact fun h ↦ isSpelledBy_lit h _
  | case5 =>
    intro h
    rcases Option.or_eq_some_iff.mp h with hnumber | ⟨-, hmark⟩
    · exact isSpelledBy_of_number? hnumber
    · exact isSpelledBy_of_mark? hmark

/-! ## Tokens in place -/

/-- The text starts behind the order mark, if there is one. -/
theorem offset_textStart (source : ByteArray) :
    (textStart source).offset = (orderMark source.toList).length := by
  rw [textStart, Position.start_advanceBy]

/-- The bytes of a source are its order mark and its text. -/
theorem orderMark_append_drop (source : ByteArray) :
    orderMark source.toList ++ source.toList.drop (textStart source).offset = source.toList := by
  rw [offset_textStart, orderMark]
  split
  · rename_i hmark
    obtain ⟨rest, hrest⟩ := List.isPrefixOf_iff_prefix.mp hmark
    rw [← hrest, List.drop_left]
  · rfl

theorem offset_textStart_le (source : ByteArray) :
    (textStart source).offset ≤ source.toList.length := by
  rw [offset_textStart, ← congrArg List.length (orderMark_append_drop source), List.length_append]
  exact Nat.le_add_right _ _

/-- Tokens that lie one after the other on some bytes, the first of which is at a position. -/
inductive Laid : Position → List UInt8 → List Token → Prop where
  | nil (pos : Position) (bytes : List UInt8) : Laid pos bytes []
  | cons {pos : Position} {t : Token} {toks : List Token} (gap text : List UInt8)
      {rest : List UInt8} (hstart : t.start = pos.advanceBy gap)
      (hstop : t.stop = t.start.advanceBy text) (htext : text ≠ [])
      (hspelled : t.kind.IsSpelledBy text) (hrest : Laid t.stop rest toks) :
      Laid pos (gap ++ (text ++ rest)) (t :: toks)

namespace Laid

/-- What lies before the tokens may grow. -/
theorem skip {pos : Position} {bytes : List UInt8} {toks : List Token} (front : List UInt8)
    (h : Laid (pos.advanceBy front) bytes toks) : Laid pos (front ++ bytes) toks := by
  cases h with
  | nil => exact .nil pos _
  | cons gap text hstart hstop htext hspelled hrest =>
    rw [← List.append_assoc]
    rw [← Position.advanceBy_append] at hstart
    exact .cons (front ++ gap) text hstart hstop htext hspelled hrest

/-- The scanner lays out its tokens in order, each with the bytes that spell it. -/
theorem of_scan {fuel : ℕ} {pos : Position} {newline : Bool} {comments : List Comment}
    {bytes : List UInt8} {toks : List Token} (h : scan fuel pos newline comments bytes = some toks) :
    Laid pos bytes toks := by
  induction fuel generalizing pos newline comments bytes toks with
  | zero =>
    rw [scan] at h
    split_ifs at h
    rw [← Option.some.inj h]
    exact .nil pos bytes
  | succ fuel ih =>
    cases bytes with
    | nil =>
      rw [← Option.some.inj h]
      exact .nil pos []
    | cons b rest =>
      rw [scan] at h
      split_ifs at h
      · exact skip [b] (ih h)
      split at h
      · rename_i n _
        rw [← List.take_append_drop n (b :: rest)]
        exact skip _ (ih h)
      split at h
      · simp at h
      · rename_i kind n hlexeme
        obtain ⟨hpos, hspelled⟩ := isSpelledBy_of_lexeme? hlexeme
        obtain ⟨toks', hscan, rfl⟩ := Option.map_eq_some_iff.mp h
        have htext : (b :: rest).take n ≠ [] := by simpa using Nat.pos_iff_ne_zero.mp hpos
        have hlaid : Laid pos ([] ++ ((b :: rest).take n ++ (b :: rest).drop n))
            (⟨kind, pos, _, newline, comments⟩ :: toks') :=
          .cons [] _ rfl rfl htext hspelled (ih hscan)
        rwa [List.nil_append, List.take_append_drop] at hlaid

/-- The tokens of a source are laid out from its first byte. -/
theorem of_tokens? {source : ByteArray} {toks : List Token} (h : tokens? source = some toks) :
    Laid Position.start source.toList toks := by
  rw [← orderMark_append_drop source]
  exact skip _ (of_scan h)

/-- Cutting a mark in two gives two tokens in its place. -/
theorem of_cut {pos : Position} {bytes : List UInt8} {toks toks' : List Token}
    (h : Laid pos bytes toks) (hcut : Cut toks toks') : Laid pos bytes toks' := by
  cases hcut with
  | intro before after hkind ha hb =>
    induction before generalizing pos bytes with
    | nil =>
      cases h with
      | cons gap text hstart hstop htext hspelled hrest =>
        rw [hkind, TokenKind.IsSpelledBy, utf8_append] at hspelled
        subst hspelled
        rw [List.append_assoc]
        rw [Position.advanceBy_append] at hstop
        exact .cons gap _ hstart rfl (utf8_ne_nil ha) rfl
          (.cons [] _ rfl hstop (utf8_ne_nil hb) rfl hrest)
    | cons t before ih =>
      cases h with
      | cons gap text hstart hstop htext hspelled hrest =>
        exact .cons gap text hstart hstop htext hspelled (ih hrest)

/-- Halves of a mark are laid out where the mark was. -/
theorem of_refines {pos : Position} {bytes : List UInt8} {toks toks' : List Token}
    (h : Laid pos bytes toks) (hrefines : Refines toks toks') : Laid pos bytes toks' := by
  induction hrefines with
  | refl => exact h
  | tail _ hcut ih => exact ih.of_cut hcut

/-- No token starts before the place where the layout does. -/
theorem offset_le {pos : Position} {bytes : List UInt8} {toks : List Token}
    (h : Laid pos bytes toks) : ∀ t ∈ toks, pos.offset ≤ t.start.offset := by
  induction h with
  | nil => simp
  | @cons pos t _ gap text _ hstart hstop htext hspelled hrest ih =>
    have hself := Position.offset_advanceBy pos gap
    rw [← hstart] at hself
    have hnext := Position.offset_advanceBy t.start text
    rw [← hstop] at hnext
    intro u hu
    rcases List.mem_cons.mp hu with rfl | hu
    · omega
    · have := ih u hu
      omega

/-- Each token starts before all those behind it. -/
theorem pairwise_offset_lt {pos : Position} {bytes : List UInt8} {toks : List Token}
    (h : Laid pos bytes toks) : toks.Pairwise fun t u ↦ t.start.offset < u.start.offset := by
  induction h with
  | nil => exact .nil
  | cons gap text hstart hstop htext hspelled hrest ih =>
    refine .cons ?_ ih
    intro u hu
    have hle := hrest.offset_le u hu
    rw [hstop, Position.offset_advanceBy] at hle
    have := List.length_pos_iff.mpr htext
    omega

/-- Each token is spelled by the bytes from its position on. -/
theorem exists_spelling (before : List UInt8) {bytes : List UInt8} {toks : List Token}
    (h : Laid (Position.start.advanceBy before) bytes toks) {t : Token} (ht : t ∈ toks) :
    ∃ front text after, before ++ bytes = front ++ (text ++ after) ∧
      t.start = Position.start.advanceBy front ∧ t.kind.IsSpelledBy text := by
  generalize hpos : Position.start.advanceBy before = pos at h
  induction h generalizing before with
  | nil => simp at ht
  | @cons pos _ _ gap text rest hstart hstop htext hspelled hrest ih =>
    subst hpos
    rw [← Position.advanceBy_append] at hstart
    rcases List.mem_cons.mp ht with rfl | ht
    · exact ⟨before ++ gap, text, rest, by simp only [List.append_assoc], hstart, hspelled⟩
    · rw [hstart, ← Position.advanceBy_append] at hstop
      have := @ih (before ++ gap ++ text) ht hstop.symm
      simpa only [List.append_assoc] using this

/-- Tokens laid out from the first byte have true positions. -/
theorem isAt {bytes : List UInt8} {toks : List Token} (h : Laid Position.start bytes toks)
    {t : Token} (ht : t ∈ toks) : t.start.IsAt bytes := by
  obtain ⟨front, text, after, hbytes, hstart, -⟩ := exists_spelling [] h ht
  rw [List.nil_append] at hbytes
  rw [hbytes, hstart]
  exact Position.isAt_advanceBy front (text ++ after)

/-- A token that is a keyword is written at its position. -/
theorem startsWith_of_word {bytes : List UInt8} {toks : List Token} (h : Laid Position.start bytes toks)
    {t : Token} (ht : t ∈ toks) {w : String} (hword : t.kind = .word w) (hw : w ≠ "") :
    startsWith (bytes.drop t.start.offset) w = true := by
  obtain ⟨front, text, after, hbytes, hstart, hspelled⟩ := exists_spelling [] h ht
  rw [hword, TokenKind.IsSpelledBy, textOf] at hspelled
  have htext : text = utf8 w := by
    cases hdecode : decode? ⟨text.toArray⟩ with
    | none => exact absurd (by simpa [hdecode] using hspelled.symm) hw
    | some w' =>
      rw [hdecode] at hspelled
      exact eq_utf8_of_decode? (hdecode.trans (congrArg some hspelled))
  rw [List.nil_append] at hbytes
  rw [hbytes, hstart, Position.start_advanceBy, List.drop_left, htext]
  exact List.isPrefixOf_iff_prefix.mpr (List.prefix_append _ after)

end Laid

end Source

end GoComplexity
