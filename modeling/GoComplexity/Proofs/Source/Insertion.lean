import GoComplexity.Proofs.Source.Lexemes
import GoComplexity.Proofs.Source.Scanning
import GoComplexity.Source.Text
import Mathlib.Data.List.Infix

/-!
# Inserting a comment

A block comment with a blank on each side is put between two tokens of a source, outside the comments
that stand there. The tokens in front of it stay, and those behind it move by its length. It becomes a
comment of its own or, at the end of a line comment, a part of that one. The only tokens in danger are
those behind a `/*` that nothing closed before.
-/

namespace GoComplexity.Source

open Syntax

/-! ## The comment -/

/-- A text on one line that does not end the block comment around it. -/
structure IsCommentText (text : List UInt8) : Prop where
  noFeed : 10 ∉ text
  noNull : 0 ∉ text
  noEnd : ¬ [42, 47] <:+: text

instance (text : List UInt8) : Decidable (IsCommentText text) :=
  decidable_of_iff (10 ∉ text ∧ 0 ∉ text ∧ ¬ [42, 47] <:+: text)
    ⟨fun ⟨hfeed, hnull, hend⟩ ↦ ⟨hfeed, hnull, hend⟩, fun h ↦ ⟨h.noFeed, h.noNull, h.noEnd⟩⟩

def blockComment (text : List UInt8) : List UInt8 := 47 :: 42 :: (text ++ [42, 47])

/-- A block comment with a blank on each side. -/
def spacedComment (text : List UInt8) : List UInt8 := 32 :: (blockComment text ++ [32])

variable {text : List UInt8}

theorem IsCommentText.of_cons {b : UInt8} (h : IsCommentText (b :: text)) : IsCommentText text where
  noFeed hmem := h.noFeed (List.mem_cons_of_mem b hmem)
  noNull hmem := h.noNull (List.mem_cons_of_mem b hmem)
  noEnd hcontained := h.noEnd (hcontained.trans (List.suffix_cons b text).isInfix)

/-- A block comment ends at its first `*/`. -/
theorem blockEnd?_append_close (h : IsCommentText text) (more : List UInt8) :
    blockEnd? (text ++ 42 :: 47 :: more) = some (text.length + 2) := by
  induction text with
  | nil => rfl
  | cons b text ih =>
    have hend : ∀ tail, b = 42 → text ++ 42 :: 47 :: more = 47 :: tail → False := by
      rintro tail rfl htail
      rcases text with _ | ⟨c, text⟩
      · exact absurd (List.cons.inj htail).1 (by decide)
      · obtain ⟨rfl, -⟩ := List.cons.inj htail
        exact h.noEnd (List.prefix_append [42, 47] text).isInfix
    have hnull : b ≠ 0 := fun heq ↦ h.noNull (heq ▸ List.mem_cons_self)
    rw [List.cons_append, blockEnd?.eq_3 _ _ hend hnull, ih h.of_cons]
    rfl

/-- A block comment is read to its end, whatever comes after it. -/
theorem commentLength?_blockComment (h : IsCommentText text) (more : List UInt8) :
    commentLength? (blockComment text ++ more) = some (blockComment text).length := by
  simp only [blockComment, List.cons_append, List.append_assoc, List.nil_append, List.length_cons,
    List.length_append, List.length_nil]
  rw [commentLength?_block, blockEnd?_append_close h]
  rfl

/-- The inserted text may stand inside a line comment. -/
theorem staysOnLine_of_mem_spacedComment (h : IsCommentText text) {b : UInt8}
    (hb : b ∈ spacedComment text) : staysOnLine b = true := by
  simp only [spacedComment, blockComment, List.mem_cons, List.mem_append, List.not_mem_nil,
    or_false] at hb
  rcases hb with rfl | (rfl | rfl | hb | rfl | rfl) | rfl
  case inr.inl.inr.inr.inl =>
    have hfeed : b ≠ 10 := fun heq ↦ h.noFeed (heq ▸ hb)
    have hnull : b ≠ 0 := fun heq ↦ h.noNull (heq ▸ hb)
    simp [staysOnLine, hfeed, hnull]
  all_goals rfl

/-! ## Skipping -/

theorem offset_advance (pos : Position) (b : UInt8) : (pos.advance b).offset = pos.offset + 1 :=
  pos.offset_advanceBy [b]

namespace Skips

variable {pos stop : Position} {front back bytes rest : List UInt8} {newline : Bool}
  {comments : List Comment}

/-- A comment that ends where the bytes to skip go on. -/
theorem commentThen {c : List UInt8} (hlength : commentLength? (c ++ bytes) = some c.length)
    (hrest : Skips (pos.advanceBy c) bytes newline comments stop rest) :
    Skips pos (c ++ bytes) newline (⟨pos, pos.advanceBy c⟩ :: comments) stop rest := by
  have hskips : Skips (pos.advanceBy ((c ++ bytes).take c.length)) ((c ++ bytes).drop c.length) newline
      comments stop rest := by
    rwa [List.take_left, List.drop_left]
  have hcomment := Skips.comment hlength hskips
  rwa [List.take_left] at hcomment

/-- Skipping does not depend on the position that it starts from. -/
theorem shift (h : Skips pos bytes newline comments stop rest) (pos' : Position) :
    ∃ comments' stop', Skips pos' bytes newline comments' stop' rest ∧
      stop'.offset + pos.offset = stop.offset + pos'.offset := by
  induction h generalizing pos' with
  | done pos bytes => exact ⟨[], pos', .done pos' bytes, Nat.add_comm _ _⟩
  | @blank pos _ b _ _ _ _ hblank _ ih =>
    obtain ⟨comments', stop', hskips, hoffset⟩ := ih (pos'.advance b)
    refine ⟨comments', stop', .blank hblank hskips, ?_⟩
    rw [offset_advance, offset_advance] at hoffset
    omega
  | @comment pos _ bytes _ _ _ n hlength _ ih =>
    obtain ⟨comments', stop', hskips, hoffset⟩ := ih (pos'.advanceBy (bytes.take n))
    refine ⟨_, stop', .comment hlength hskips, ?_⟩
    rw [Position.offset_advanceBy, Position.offset_advanceBy] at hoffset
    omega

/-- What is skipped in front of a place is skipped whatever stands behind it. -/
theorem keep (h : Skips pos (front ++ back) newline comments stop rest)
    (hstop : stop.offset < pos.offset + front.length) (other : List UInt8) :
    ∃ gap front', front = gap ++ front' ∧ stop = pos.advanceBy gap ∧ rest = front' ++ back ∧
      Skips pos (front ++ other) newline comments stop (front' ++ other) := by
  generalize hbytes : front ++ back = bytes at h
  induction h generalizing front with
  | done pos bytes => exact ⟨[], front, rfl, rfl, hbytes.symm, .done pos _⟩
  | @blank pos stop b bytes rest newline comments hblank hrest ih =>
    have hle := hrest.le_stop.offset
    rw [offset_advance] at hle
    rcases front with _ | ⟨b', front⟩
    · rw [List.length_nil] at hstop
      omega
    · obtain ⟨rfl, rfl⟩ := List.cons.inj hbytes
      rw [List.length_cons] at hstop
      have hstop' : stop.offset < (pos.advance b').offset + front.length := by
        rw [offset_advance]
        omega
      obtain ⟨gap, front', rfl, rfl, rfl, hskips⟩ := ih hstop' rfl
      exact ⟨b' :: gap, front', rfl, rfl, rfl, .blank hblank hskips⟩
  | @comment pos stop bytes rest newline comments n hlength hrest ih =>
    subst hbytes
    have hle := hrest.le_stop.offset
    rw [Position.offset_advanceBy, List.length_take, List.length_append] at hle
    have hn : n < front.length := by omega
    obtain ⟨c, front, rfl, rfl⟩ : ∃ c front', front = c ++ front' ∧ c.length = n :=
      ⟨_, _, (List.take_append_drop n front).symm, List.length_take_of_le hn.le⟩
    have htake : (c ++ front ++ back).take c.length = c := by rw [List.append_assoc, List.take_left]
    have hdrop : (c ++ front ++ back).drop c.length = front ++ back := by
      rw [List.append_assoc, List.drop_left]
    rw [htake, hdrop] at ih
    rw [htake]
    rw [List.length_append] at hstop
    have hstop' : stop.offset < (pos.advanceBy c).offset + front.length := by
      rw [Position.offset_advanceBy]
      omega
    obtain ⟨gap, front', rfl, rfl, rfl, hskips⟩ := ih hstop' rfl
    have hlength' := commentLength?_append_congr hlength hn other
    rw [List.append_assoc] at hlength' ⊢
    exact ⟨c ++ gap, front', by rw [List.append_assoc], (pos.advanceBy_append c gap).symm, rfl,
      .commentThen hlength' hskips⟩

/-- The inserted comment is skipped in front of what is skipped. -/
theorem prepend (htext : IsCommentText text) (h : Skips pos bytes newline comments stop rest) :
    ∃ comments' stop', Skips pos (spacedComment text ++ bytes) newline comments' stop' rest ∧
      stop'.offset = stop.offset + (spacedComment text).length := by
  obtain ⟨comments', stop', hskips, hoffset⟩ :=
    h.shift (((pos.advance 32).advanceBy (blockComment text)).advance 32)
  have hspaced := Skips.blank (b := 32) rfl
    (commentThen (commentLength?_blockComment htext _) (.blank (b := 32) rfl hskips))
  have hsplit : spacedComment text ++ bytes = 32 :: (blockComment text ++ 32 :: bytes) := by
    simp [spacedComment]
  rw [← hsplit] at hspaced
  refine ⟨_, stop', hspaced, ?_⟩
  rw [offset_advance, Position.offset_advanceBy, offset_advance] at hoffset
  rw [spacedComment, List.length_cons, List.length_append, List.length_singleton]
  omega

/-- The inserted comment is skipped behind another one, or becomes a part of it. -/
theorem insertBehind {c : List UInt8} (htext : IsCommentText text)
    (hlength : commentLength? (c ++ (front ++ back)) = some c.length)
    (h : Skips (pos.advanceBy c) (front ++ back) newline comments stop rest)
    (hinsert : ∃ comments' stop',
      Skips (pos.advanceBy c) (front ++ (spacedComment text ++ back)) newline comments' stop' rest ∧
        stop'.offset = stop.offset + (spacedComment text).length) :
    ∃ comments' stop',
      Skips pos (c ++ (front ++ (spacedComment text ++ back))) newline comments' stop' rest ∧
        stop'.offset = stop.offset + (spacedComment text).length := by
  obtain ⟨comments', stop', hskips, hoffset⟩ := hinsert
  by_cases hfront : front = []
  · subst hfront
    rw [List.nil_append] at hlength h hskips ⊢
    rcases commentLength?_at_end hlength fun b ↦ staysOnLine_of_mem_spacedComment htext with
      hstays | htakes
    · exact ⟨_, stop', .commentThen (hstays _) hskips, hoffset⟩
    · -- A line comment takes in what is inserted at its end.
      obtain ⟨comments', stop', hskips, hoffset⟩ := h.shift (pos.advanceBy (c ++ spacedComment text))
      rw [← List.append_assoc, ← List.length_append] at htakes
      rw [← List.append_assoc]
      refine ⟨_, stop', .commentThen htakes hskips, ?_⟩
      rw [Position.offset_advanceBy, Position.offset_advanceBy, List.length_append] at hoffset
      omega
  · have hlt : c.length < (c ++ front).length := by
      rw [List.length_append]
      exact Nat.lt_add_of_pos_right (List.length_pos_iff.mpr hfront)
    rw [← List.append_assoc] at hlength
    have hlength' := commentLength?_append_congr hlength hlt (spacedComment text ++ back)
    rw [List.append_assoc] at hlength'
    exact ⟨_, stop', .commentThen hlength' hskips, hoffset⟩

/-- The inserted comment is skipped along with what is skipped around it. -/
theorem insert (htext : IsCommentText text) (h : Skips pos (front ++ back) newline comments stop rest)
    (hrest : rest ≠ []) (hstop : pos.offset + front.length ≤ stop.offset)
    (houtside : ∀ c ∈ comments, c.stop.offset ≤ pos.offset + front.length ∨
      pos.offset + front.length ≤ c.start.offset) :
    ∃ comments' stop', Skips pos (front ++ (spacedComment text ++ back)) newline comments' stop' rest ∧
      stop'.offset = stop.offset + (spacedComment text).length := by
  generalize hbytes : front ++ back = bytes at h
  induction h generalizing front with
  | done pos bytes =>
    obtain rfl : front = [] := List.eq_nil_of_length_eq_zero (by omega)
    rw [← hbytes]
    exact (done pos back).prepend htext
  | @blank pos stop b bytes rest newline comments hblank hskips ih =>
    rcases front with _ | ⟨b', front⟩
    · rw [List.nil_append] at hbytes
      rw [hbytes]
      exact (blank hblank hskips).prepend htext
    · obtain ⟨rfl, rfl⟩ := List.cons.inj hbytes
      have hplace : (pos.advance b').offset + front.length = pos.offset + (b' :: front).length := by
        rw [offset_advance, List.length_cons]
        omega
      rw [← hplace] at hstop houtside
      obtain ⟨comments', stop', hskips', hoffset⟩ := ih hrest hstop houtside rfl
      exact ⟨comments', stop', .blank hblank hskips', hoffset⟩
  | @comment pos stop bytes rest newline comments n hlength hskips ih =>
    rcases front with _ | ⟨b, front⟩
    · rw [List.nil_append] at hbytes
      rw [hbytes]
      exact (comment hlength hskips).prepend htext
    subst hbytes
    generalize hfront : b :: front = whole at *
    have hpos : 0 < whole.length := by simp [← hfront]
    -- A comment that starts in front of the place ends there at the latest.
    have hn : n ≤ whole.length := by
      obtain ⟨gap, hgap, hstop⟩ := hskips.exists_gap
      have hlengths := congrArg List.length hgap
      have hrestLength := List.length_pos_iff.mpr hrest
      have hends := (houtside _ List.mem_cons_self).resolve_right (by simp only; omega)
      simp only [Position.offset_advanceBy, List.length_take, List.length_append,
        List.length_drop] at hends hlengths
      omega
    obtain ⟨c, front, rfl, rfl⟩ : ∃ c front', whole = c ++ front' ∧ c.length = n :=
      ⟨_, _, (List.take_append_drop n whole).symm, List.length_take_of_le hn⟩
    rw [List.append_assoc] at hlength hskips ih houtside ⊢
    rw [List.take_left] at hskips ih houtside
    rw [List.drop_left] at hskips ih
    have hplace : (pos.advanceBy c).offset + front.length = pos.offset + (c ++ front).length := by
      rw [Position.offset_advanceBy, List.length_append]
      omega
    rw [← hplace] at hstop houtside
    refine hskips.insertBehind htext hlength (ih hrest hstop ?_ rfl)
    intro d hd
    exact houtside d (List.mem_cons_of_mem _ hd)

end Skips

/-! ## Tokens -/

/-- Whether the token, if it is a mark, is as long as its text. -/
def Token.IsSized (t : Token) : Prop :=
  ∀ m, t.kind = .mark m → t.stop.offset = t.start.offset + m.utf8ByteSize

/-- How a token changes when bytes are inserted at a place: in front of it nothing changes, and behind
it all offsets grow by their number. -/
inductive Displaced (place count : ℕ) : Token → Token → Prop where
  | kept {t : Token} (hstop : t.stop.offset ≤ place) (hsized : t.IsSized) : Displaced place count t t
  | moved {t t' : Token} (hplace : place ≤ t.start.offset) (hkind : t'.kind = t.kind)
      (hnewline : t'.newline = t.newline) (hstart : t'.start.offset = t.start.offset + count)
      (hstop : t'.stop.offset = t.stop.offset + count) : Displaced place count t t'

namespace Displaced

variable {place count : ℕ} {t t' : Token}

theorem kind_eq (h : Displaced place count t t') : t'.kind = t.kind := by
  cases h with
  | kept => rfl
  | moved _ hkind => exact hkind

theorem newline_eq (h : Displaced place count t t') : t'.newline = t.newline := by
  cases h with
  | kept => rfl
  | moved _ _ hnewline => exact hnewline

/-- The two parts of a mark move along with it. -/
theorem halves (h : Displaced place count t t') {a b : String} (hkind : t.kind = .mark (a ++ b)) :
    List.Forall₂ (Displaced place count) (t.halves a b) (t'.halves a b) := by
  have hmiddle (pos : Position) :
      (pos.advanceBy a.toUTF8.toList).offset = pos.offset + a.utf8ByteSize := by
    rw [Position.offset_advanceBy, ← Text.length_utf8, Text.utf8]
  cases h with
  | kept hstop hsized =>
    have hsize := hsized _ hkind
    rw [String.utf8ByteSize_append] at hsize
    refine .cons (.kept ?_ ?_) (.cons (.kept hstop ?_) .nil)
    · rw [hmiddle]
      omega
    · intro m hm
      obtain rfl := TokenKind.mark.inj hm
      exact hmiddle t.start
    · intro m hm
      obtain rfl := TokenKind.mark.inj hm
      simp only [hmiddle]
      omega
  | moved hplace _ hnewline hstart hstop =>
    refine .cons (.moved hplace rfl hnewline hstart ?_) (.cons (.moved ?_ rfl rfl ?_ hstop) .nil) <;>
      simp only [hmiddle] <;> omega

end Displaced

namespace Scans

variable {pos : Position} {front back bytes : List UInt8} {toks : List Token} {place count : ℕ}

/-- A token that the scanner reads is as long as its text. -/
theorem isSized {rest : List UInt8} {t : Token} {n : ℕ} (hleads : Leads rest t.kind n)
    (hstop : t.stop = t.start.advanceBy (rest.take n)) : t.IsSized := by
  intro m hm
  have hspelled := (isSpelledBy_of_lexeme? hleads.lexeme).2
  rw [hm, TokenKind.IsSpelledBy] at hspelled
  rw [hstop, Position.offset_advanceBy, hspelled, Text.length_utf8]

/-- Tokens start before the bytes end. -/
theorem start_lt (h : Scans pos bytes toks) :
    ∀ t ∈ toks, t.start.offset < pos.offset + bytes.length := by
  induction h with
  | nil => simp
  | @cons pos bytes rest t toks n hskips hleads hstop hrest ih =>
    obtain ⟨gap, rfl, hstart⟩ := hskips.exists_gap
    have hstartOffset := pos.offset_advanceBy gap
    have hstopOffset := t.start.offset_advanceBy (rest.take n)
    rw [← hstart] at hstartOffset
    rw [← hstop, List.length_take] at hstopOffset
    have hlength := List.length_pos_iff.mpr hleads.ne_nil
    rw [List.length_append]
    refine List.forall_mem_cons.mpr ⟨by omega, fun u hu ↦ ?_⟩
    have hlater := ih u hu
    rw [List.length_drop] at hlater
    omega

/-- A token behind the place moves if what is skipped before it does. -/
theorem consMoved {rest : List UInt8} {t : Token} {n : ℕ} {start : Position} {comments : List Comment}
    (hskips : Skips pos bytes t.newline comments start rest) (hleads : Leads rest t.kind n)
    (hstop : t.stop = t.start.advanceBy (rest.take n)) (hplace : place ≤ t.start.offset)
    (hstart : start.offset = t.start.offset + count)
    (hrest : ∃ toks', Scans (start.advanceBy (rest.take n)) (rest.drop n) toks' ∧
      List.Forall₂ (Displaced place count) toks toks') :
    ∃ toks', Scans pos bytes toks' ∧ List.Forall₂ (Displaced place count) (t :: toks) toks' := by
  obtain ⟨toks', hscans, hdisplaced⟩ := hrest
  have hoffset : (start.advanceBy (rest.take n)).offset = t.stop.offset + count := by
    rw [hstop, Position.offset_advanceBy, Position.offset_advanceBy, hstart]
    omega
  exact ⟨⟨t.kind, start, _, t.newline, comments⟩ :: toks', .cons hskips hleads rfl hscans,
    .cons (.moved hplace rfl rfl hstart hoffset) hdisplaced⟩

/-- Tokens behind the place move with the position that they are scanned from. -/
theorem shift (h : Scans pos bytes toks) (hplace : place ≤ pos.offset) {pos' : Position}
    (hpos : pos'.offset = pos.offset + count) :
    ∃ toks', Scans pos' bytes toks' ∧ List.Forall₂ (Displaced place count) toks toks' := by
  induction h generalizing pos' with
  | nil hskips =>
    obtain ⟨comments', stop', hskips', -⟩ := hskips.shift pos'
    exact ⟨[], .nil hskips', .nil⟩
  | @cons pos bytes rest t toks n hskips hleads hstop hrest ih =>
    obtain ⟨comments', start', hskips', hstart⟩ := hskips.shift pos'
    have hself := hskips.le_stop.offset
    refine consMoved hskips' hleads hstop (by omega) (by omega) (ih ?_ ?_) <;>
      simp only [hstop, Position.offset_advanceBy] <;> omega

/-- A token in front of the place stays, unless it starts a comment that nothing closed before. -/
theorem leads_insert {kind : TokenKind} {n : ℕ} (hleads : Leads (front ++ back) kind n)
    (hn : n ≤ front.length) (hopens : ¬ OpensComment front) (more : List UInt8) :
    Leads (front ++ 32 :: more) kind n := by
  have hpos := (isSpelledBy_of_lexeme? hleads.lexeme).1
  have hfront : front ≠ [] := List.ne_nil_of_length_pos (Nat.lt_of_lt_of_le hpos hn)
  refine ⟨?_, commentLength?_blank hfront hopens hleads.notComment, lexeme?_blank hleads.lexeme hn⟩
  have hnotBlank := hleads.notBlank
  rwa [List.head?_append_of_ne_nil _ hfront] at hnotBlank ⊢

/-- A token in front of the place is read again, whatever stands behind a blank at the place. -/
theorem consKept {rest : List UInt8} {t : Token} {n : ℕ}
    (hskips : Skips pos (front ++ back) t.newline t.comments t.start rest) (hleads : Leads rest t.kind n)
    (hstop : t.stop = t.start.advanceBy (rest.take n)) (hback : back ≠ [])
    (hbefore : t.stop.offset ≤ pos.offset + front.length)
    (hopens : ∀ gap front', front = gap ++ front' → t.start.offset = pos.offset + gap.length →
      ¬ OpensComment front') (more : List UInt8) :
    ∃ gap front', front = gap ++ front' ∧ rest.drop n = front' ++ back ∧
      t.start.offset < t.stop.offset ∧ t.stop.offset = pos.offset + gap.length ∧
      ∀ toks', Scans t.stop (front' ++ 32 :: more) toks' →
        Scans pos (front ++ 32 :: more) (t :: toks') := by
  have hpos := (isSpelledBy_of_lexeme? hleads.lexeme).1
  have hlength := List.length_pos_iff.mpr hleads.ne_nil
  have hoffset := t.start.offset_advanceBy (rest.take n)
  rw [← hstop, List.length_take] at hoffset
  obtain ⟨gap, front', rfl, hstart, rfl, hskips'⟩ := hskips.keep (by omega) (32 :: more)
  have hgap : t.start.offset = pos.offset + gap.length := by rw [hstart, Position.offset_advanceBy]
  have hn : n ≤ front'.length := by
    have := List.length_pos_iff.mpr hback
    rw [List.length_append] at hoffset hbefore
    omega
  have hleads' := leads_insert hleads hn (hopens gap front' rfl hgap) more
  obtain ⟨word, front, rfl, rfl⟩ : ∃ word front, front' = word ++ front ∧ word.length = n :=
    ⟨_, _, (List.take_append_drop n front').symm, List.length_take_of_le hn⟩
  rw [List.append_assoc word] at hstop hskips' hleads'
  rw [List.take_left] at hstop
  refine ⟨gap ++ word, front, by rw [List.append_assoc], by rw [List.append_assoc, List.drop_left],
    by omega, ?_, ?_⟩
  · rw [hstop, Position.offset_advanceBy, hgap, List.length_append]
    omega
  · intro toks' hscans
    refine .cons hskips' hleads' (by rw [List.take_left, hstop]) ?_
    rwa [List.drop_left]

/-- Where no token starts a comment that nothing closes, an inserted comment displaces the tokens. -/
theorem insert (htext : IsCommentText text) (h : Scans pos (front ++ back) toks)
    (hplace : place = pos.offset + front.length) (hback : back ≠ [])
    (hnext : ∃ t ∈ toks, place ≤ t.start.offset)
    (hbetween : ∀ t ∈ toks, t.stop.offset ≤ place ∨ place ≤ t.start.offset)
    (houtside : ∀ t ∈ toks, ∀ c ∈ t.comments, c.stop.offset ≤ place ∨ place ≤ c.start.offset)
    (hopens : ∀ t ∈ toks, ∀ gap front', front = gap ++ front' →
      t.start.offset = pos.offset + gap.length → ¬ OpensComment front') :
    ∃ toks', Scans pos (front ++ (spacedComment text ++ back)) toks' ∧
      List.Forall₂ (Displaced place (spacedComment text).length) toks toks' := by
  generalize hbytes : front ++ back = bytes at h
  induction h generalizing front with
  | nil => simp at hnext
  | @cons pos bytes rest t toks n hskips hleads hstop hrest ih =>
    subst hbytes
    obtain ⟨hbetweenSelf, hbetween⟩ := List.forall_mem_cons.mp hbetween
    obtain ⟨houtsideSelf, houtside⟩ := List.forall_mem_cons.mp houtside
    obtain ⟨hopensSelf, hopens⟩ := List.forall_mem_cons.mp hopens
    rcases hbetweenSelf with hbefore | hbehind
    · obtain ⟨gap, front', rfl, hdrop, hlt, hgap, hcons⟩ :=
        consKept hskips hleads hstop hback (hplace ▸ hbefore) hopensSelf
          (blockComment text ++ [32] ++ back)
      have hplace' : place = t.stop.offset + front'.length := by
        rw [hplace, hgap, List.length_append]
        omega
      have hnext' : ∃ u ∈ toks, place ≤ u.start.offset := by
        obtain ⟨u, hu, hbehind⟩ := hnext
        rcases List.mem_cons.mp hu with rfl | hu
        · omega
        · exact ⟨u, hu, hbehind⟩
      have hopens' : ∀ u ∈ toks, ∀ gap' front'', front' = gap' ++ front'' →
          u.start.offset = t.stop.offset + gap'.length → ¬ OpensComment front'' := by
        rintro u hu gap' front'' rfl hu'
        refine hopens u hu (gap ++ gap') front'' (List.append_assoc gap gap' front'').symm ?_
        rw [hu', hgap, List.length_append]
        omega
      obtain ⟨toks', hscans, hdisplaced⟩ := ih hplace' hnext' hbetween houtside hopens' hdrop.symm
      exact ⟨t :: toks', hcons toks' hscans, .cons (.kept hbefore (isSized hleads hstop)) hdisplaced⟩
    · obtain ⟨comments', start', hskips', hstart⟩ := hskips.insert htext hleads.ne_nil (by omega)
        (hplace ▸ houtsideSelf)
      refine consMoved hskips' hleads hstop hbehind hstart (hrest.shift ?_ ?_)
      · rw [hstop, Position.offset_advanceBy]
        omega
      · rw [hstop, Position.offset_advanceBy, Position.offset_advanceBy]
        omega

end Scans

/-! ## Sources -/

/-- The source with a comment, blanks around it, inserted at a place. -/
def insertComment (source : ByteArray) (place : ℕ) (text : List UInt8) : ByteArray :=
  ⟨(source.toList.take place ++ (spacedComment text ++ source.toList.drop place)).toArray⟩

/-- A place between two tokens, not inside one of the comments between them. As in the language a token
is the longest sequence of characters that makes one, so a place between the two halves of a mark that
the grammar takes apart, as the `<-` of `x := a<-b`, lies inside a token, and so does any place in a
string. -/
structure IsGap (toks : List Token) (place : ℕ) : Prop where
  next : ∃ t ∈ toks, place ≤ t.start.offset
  between : ∀ t ∈ toks, t.stop.offset ≤ place ∨ place ≤ t.start.offset
  outside : ∀ t ∈ toks, ∀ c ∈ t.comments, c.stop.offset ≤ place ∨ place ≤ c.start.offset

instance (toks : List Token) (place : ℕ) : Decidable (IsGap toks place) :=
  decidable_of_iff ((∃ t ∈ toks, place ≤ t.start.offset) ∧
      (∀ t ∈ toks, t.stop.offset ≤ place ∨ place ≤ t.start.offset) ∧
      ∀ t ∈ toks, ∀ c ∈ t.comments, c.stop.offset ≤ place ∨ place ≤ c.start.offset)
    ⟨fun ⟨hnext, hbetween, houtside⟩ ↦ ⟨hnext, hbetween, houtside⟩,
      fun h ↦ ⟨h.next, h.between, h.outside⟩⟩

/-- Whether, up to a place, some token starts a block comment that has no end and no null byte. -/
def HasOpenComment (source : ByteArray) (toks : List Token) (place : ℕ) : Prop :=
  ∃ t ∈ toks, OpensComment ((source.toList.take place).drop t.start.offset)

instance (source : ByteArray) (toks : List Token) (place : ℕ) :
    Decidable (HasOpenComment source toks place) :=
  inferInstanceAs (Decidable (∃ t ∈ toks, OpensComment ((source.toList.take place).drop t.start.offset)))

theorem toList_insertComment (source : ByteArray) (place : ℕ) (text : List UInt8) :
    (insertComment source place text).toList =
      source.toList.take place ++ (spacedComment text ++ source.toList.drop place) := by
  rw [Text.toList_eq_data, insertComment]

/-- A gap lies in front of some token, so inside the source. -/
theorem IsGap.lt_length {source : ByteArray} {toks : List Token} (htoks : tokens? source = some toks)
    {place : ℕ} (h : IsGap toks place) : place < source.toList.length := by
  obtain ⟨t, ht, hplace⟩ := h.next
  have hstart := (Scans.of_tokens? htoks).start_lt t ht
  rw [List.length_drop, Nat.add_sub_of_le (offset_textStart_le source)] at hstart
  exact Nat.lt_of_le_of_lt hplace hstart

/-- Bytes in front of a blank make an order mark whatever stands behind them. -/
theorem orderMark_blank {front back rest : List UInt8}
    (h : (orderMark (front ++ back)).length ≤ front.length) :
    orderMark (front ++ 32 :: rest) = orderMark (front ++ back) := by
  rcases front with _ | ⟨a, _ | ⟨b, _ | ⟨c, front⟩⟩⟩
  case cons.cons.cons => rfl
  all_goals
    rw [orderMark] at h ⊢
    rw [orderMark]
    split_ifs at h ⊢ with hmark hmark' hmark'
    all_goals simp_all [List.isPrefixOf]

/-- A comment behind the order mark does not move the start of the text. -/
theorem textStart_insertComment {source : ByteArray} {place : ℕ} (text : List UInt8)
    (hplace : place ≤ source.toList.length) (hstart : (textStart source).offset ≤ place) :
    textStart (insertComment source place text) = textStart source := by
  rw [offset_textStart] at hstart
  have hmark : orderMark (source.toList.take place ++ (spacedComment text ++ source.toList.drop place)) =
      orderMark (source.toList.take place ++ source.toList.drop place) := by
    apply orderMark_blank
    rwa [List.take_append_drop, List.length_take_of_le hplace]
  rw [textStart, textStart, toList_insertComment, hmark, List.take_append_drop]

/-- The tokens in front of an inserted comment stay, and those behind it move. -/
theorem tokens?_insertComment {source : ByteArray} {toks : List Token}
    (htoks : tokens? source = some toks) (htext : IsCommentText text) {place : ℕ}
    (hstart : (textStart source).offset ≤ place) (hgap : IsGap toks place)
    (hopen : ¬ HasOpenComment source toks place) :
    ∃ toks', tokens? (insertComment source place text) = some toks' ∧
      List.Forall₂ (Displaced place (spacedComment text).length) toks toks' := by
  have hplace := hgap.lt_length htoks
  have htake : (source.toList.take place).length = place := List.length_take_of_le hplace.le
  have hdrop (back : List UInt8) : (source.toList.take place ++ back).drop (textStart source).offset =
      (source.toList.take place).drop (textStart source).offset ++ back :=
    List.drop_append_of_le_length (htake.symm ▸ hstart)
  have hscans := Scans.of_tokens? htoks
  rw [← List.take_append_drop place source.toList, hdrop] at hscans
  have hlength : place = (textStart source).offset +
      ((source.toList.take place).drop (textStart source).offset).length := by
    rw [List.length_drop, htake, Nat.add_sub_of_le hstart]
  have hback : source.toList.drop place ≠ [] := by
    rw [← List.length_pos_iff, List.length_drop]
    omega
  have hopens : ∀ t ∈ toks, ∀ gap front',
      (source.toList.take place).drop (textStart source).offset = gap ++ front' →
        t.start.offset = (textStart source).offset + gap.length → ¬ OpensComment front' := by
    intro t ht gap front' hfront hoffset hopens
    refine hopen ⟨t, ht, ?_⟩
    rwa [hoffset, ← List.drop_drop, hfront, List.drop_left]
  obtain ⟨toks', hscans', hdisplaced⟩ :=
    hscans.insert htext hlength hback hgap.next hgap.between hgap.outside hopens
  refine ⟨toks', ?_, hdisplaced⟩
  rw [← hdrop, ← toList_insertComment, ← textStart_insertComment text hplace.le hstart] at hscans'
  refine scan_of_scans hscans' ?_
  rw [Text.toList_eq_data, List.length_drop]
  exact Nat.sub_le _ _

/-! ## Texts -/

theorem slice_eq (source : ByteArray) (start stop : ℕ) :
    slice source start stop = textOf ⟨((source.toList.drop start).take (stop - start)).toArray⟩ := by
  rw [slice, Text.toList_eq_data, ← List.extract_eq_take_drop, ← Array.toList_extract,
    ← ByteArray.data_extract]

/-- Text in front of the place stays. -/
theorem slice_insertComment_of_le {source : ByteArray} {place : ℕ}
    (hplace : place ≤ source.toList.length) (text : List UInt8) {start stop : ℕ} (h : stop ≤ place) :
    slice (insertComment source place text) start stop = slice source start stop := by
  have htake : (insertComment source place text).toList.take stop = source.toList.take stop := by
    rw [toList_insertComment, List.take_append_of_le_length, List.take_take, Nat.min_eq_left h]
    rwa [List.length_take_of_le hplace]
  rw [slice_eq, slice_eq, ← List.drop_take, ← List.drop_take, htake]

/-- Text behind the place moves by the length of the comment. -/
theorem slice_insertComment_of_ge {source : ByteArray} {place : ℕ}
    (hplace : place ≤ source.toList.length) (text : List UInt8) {start stop : ℕ} (h : place ≤ start) :
    slice (insertComment source place text) (start + (spacedComment text).length)
      (stop + (spacedComment text).length) = slice source start stop := by
  have hdrop : (insertComment source place text).toList.drop (start + (spacedComment text).length) =
      source.toList.drop start := by
    have hlength : (source.toList.take place ++ spacedComment text).length =
        place + (spacedComment text).length := by
      rw [List.length_append, List.length_take_of_le hplace]
    rw [toList_insertComment, ← List.append_assoc, List.drop_append, hlength, List.drop_of_length_le,
      List.nil_append, List.drop_drop, Nat.add_sub_add_right, Nat.add_sub_of_le h]
    rw [hlength]
    exact Nat.add_le_add_right h _
  rw [slice_eq, slice_eq, hdrop, Nat.add_sub_add_right]

/-- A displaced token has the text that it had. -/
theorem Displaced.slice_eq {source : ByteArray} {place : ℕ} (hplace : place ≤ source.toList.length)
    {text : List UInt8} {t t' : Token} (h : Displaced place (spacedComment text).length t t') :
    slice (insertComment source place text) t'.start.offset t'.stop.offset =
      slice source t.start.offset t.stop.offset := by
  cases h with
  | kept hstop => exact slice_insertComment_of_le hplace text hstop
  | moved hbehind _ _ hstart hstop =>
    rw [hstart, hstop]
    exact slice_insertComment_of_ge hplace text hbehind

end GoComplexity.Source
