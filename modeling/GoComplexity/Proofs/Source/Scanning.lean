import GoComplexity.Proofs.Source.Layout

/-!
# Scanning without fuel

Between two tokens there are blanks and comments, which are skipped. What is skipped is judged with all
the bytes behind it present, so that a line comment cannot end before its line does. A scan of a source
skips, reads a token and goes on behind it; these are the tokens of the source, with no fuel in sight.
-/

namespace GoComplexity

open Syntax

/-! ## Order of positions -/

namespace Syntax.Position

/-- Whether a position is not behind another one of the same bytes. -/
structure Le (p q : Position) : Prop where
  line : p.line ≤ q.line
  offset : p.offset ≤ q.offset

theorem Le.refl (p : Position) : p.Le p := ⟨Nat.le_refl _, Nat.le_refl _⟩

theorem Le.trans {p q r : Position} (hpq : p.Le q) (hqr : q.Le r) : p.Le r :=
  ⟨Nat.le_trans hpq.line hqr.line, Nat.le_trans hpq.offset hqr.offset⟩

theorem le_advance (p : Position) (b : UInt8) : p.Le (p.advance b) := by
  rw [advance]
  split <;> constructor <;> simp

theorem le_advanceBy (p : Position) (bytes : List UInt8) : p.Le (p.advanceBy bytes) := by
  induction bytes generalizing p with
  | nil => exact .refl p
  | cons b bytes ih => exact (p.le_advance b).trans (ih (p.advance b))

end Syntax.Position

namespace Source

/-! ## Skipping -/

/-- Blanks and comments lead from one place to another; `newline` tells whether one of the blanks is a
line feed. -/
inductive Skips : Position → List UInt8 → Bool → List Comment → Position → List UInt8 → Prop where
  | done (pos : Position) (bytes : List UInt8) : Skips pos bytes false [] pos bytes
  | blank {pos stop : Position} {b : UInt8} {bytes rest : List UInt8} {newline : Bool}
      {comments : List Comment} (hblank : isSpace b = true)
      (hrest : Skips (pos.advance b) bytes newline comments stop rest) :
      Skips pos (b :: bytes) (b == 10 || newline) comments stop rest
  | comment {pos stop : Position} {bytes rest : List UInt8} {newline : Bool}
      {comments : List Comment} {n : ℕ} (hlength : commentLength? bytes = some n)
      (hrest : Skips (pos.advanceBy (bytes.take n)) (bytes.drop n) newline comments stop rest) :
      Skips pos bytes newline (⟨pos, pos.advanceBy (bytes.take n)⟩ :: comments) stop rest

/-- A comment has at least two bytes, of which the first one is a slash. -/
theorem exists_cons_of_commentLength? {bytes : List UInt8} {n : ℕ} (h : commentLength? bytes = some n) :
    ∃ rest, bytes = 47 :: rest ∧ 2 ≤ n := by
  rw [commentLength?.eq_def] at h
  split at h
  · rw [← Option.some.inj h]
    exact ⟨_, rfl, Nat.le_add_right _ _⟩
  · obtain ⟨m, -, rfl⟩ := Option.map_eq_some_iff.mp h
    exact ⟨_, rfl, Nat.le_add_left _ _⟩
  · simp at h

namespace Skips

variable {pos stop : Position} {bytes rest : List UInt8} {newline : Bool} {comments : List Comment}

/-- Skipping goes over some bytes and ends behind them. -/
theorem exists_gap (h : Skips pos bytes newline comments stop rest) :
    ∃ gap, bytes = gap ++ rest ∧ stop = pos.advanceBy gap := by
  induction h with
  | done pos bytes => exact ⟨[], rfl, rfl⟩
  | @blank pos _ b _ _ _ _ _ _ ih =>
    obtain ⟨gap, rfl, rfl⟩ := ih
    exact ⟨b :: gap, rfl, rfl⟩
  | @comment pos _ bytes _ _ _ n _ _ ih =>
    obtain ⟨gap, hgap, rfl⟩ := ih
    refine ⟨bytes.take n ++ gap, ?_, (Position.advanceBy_append pos _ gap).symm⟩
    rw [List.append_assoc, ← hgap, List.take_append_drop]

/-- Skipping never goes back. -/
theorem le_stop (h : Skips pos bytes newline comments stop rest) : pos.Le stop := by
  obtain ⟨gap, -, rfl⟩ := h.exists_gap
  exact pos.le_advanceBy gap

/-- The comments lie between the two places. -/
theorem le_of_mem (h : Skips pos bytes newline comments stop rest) {c : Comment} (hc : c ∈ comments) :
    pos.Le c.start ∧ c.start.Le c.stop ∧ c.stop.Le stop := by
  induction h with
  | done => simp at hc
  | @blank pos _ b _ _ _ _ _ _ ih =>
    obtain ⟨hstart, hself, hstop⟩ := ih hc
    exact ⟨(pos.le_advance b).trans hstart, hself, hstop⟩
  | @comment pos _ bytes _ _ _ n _ hrest ih =>
    have hself := pos.le_advanceBy (bytes.take n)
    rcases List.mem_cons.mp hc with rfl | hc
    · exact ⟨.refl pos, hself, hrest.le_stop⟩
    · obtain ⟨hstart, hlater, hstop⟩ := ih hc
      exact ⟨hself.trans hstart, hlater, hstop⟩

/-- Comments do not overlap and stand in order. -/
theorem pairwise_comments (h : Skips pos bytes newline comments stop rest) :
    comments.Pairwise fun c d ↦ c.start.offset < d.start.offset ∧ c.stop.Le d.start := by
  induction h with
  | done => exact .nil
  | blank _ _ ih => exact ih
  | @comment pos _ bytes _ _ _ n hlength hrest ih =>
    refine .cons ?_ ih
    intro d hd
    obtain ⟨hstart, -, -⟩ := hrest.le_of_mem hd
    obtain ⟨more, rfl, hn⟩ := exists_cons_of_commentLength? hlength
    have hoffset := hstart.offset
    rw [Position.offset_advanceBy, List.length_take, List.length_cons] at hoffset
    have hlt : pos.offset < d.start.offset := by omega
    exact ⟨hlt, hstart⟩

end Skips

/-! ## Scanning -/

theorem lexeme?_nil : lexeme? [] = none := by decide +kernel

/-- Whether some bytes start with a token of a kind and length. -/
structure Leads (bytes : List UInt8) (kind : TokenKind) (n : ℕ) : Prop where
  notBlank : ∀ b ∈ bytes.head?, isSpace b = false
  notComment : commentLength? bytes = none
  lexeme : lexeme? bytes = some (kind, n)

theorem Leads.ne_nil {bytes : List UInt8} {kind : TokenKind} {n : ℕ} (h : Leads bytes kind n) :
    bytes ≠ [] := by
  rintro rfl
  exact absurd h.lexeme (by simp [lexeme?_nil])

/-- The tokens of some bytes from a position on. -/
inductive Scans : Position → List UInt8 → List Token → Prop where
  | nil {pos stop : Position} {bytes : List UInt8} {newline : Bool} {comments : List Comment}
      (hskips : Skips pos bytes newline comments stop []) : Scans pos bytes []
  | cons {pos : Position} {bytes rest : List UInt8} {t : Token} {toks : List Token} {n : ℕ}
      (hskips : Skips pos bytes t.newline t.comments t.start rest) (hleads : Leads rest t.kind n)
      (hstop : t.stop = t.start.advanceBy (rest.take n)) (hrest : Scans t.stop (rest.drop n) toks) :
      Scans pos bytes (t :: toks)

namespace Scans

/-- A scan with what it already skipped: the tokens start behind what is skipped further. -/
theorem exists_skips_of_scan {fuel : ℕ} {pos : Position} {newline : Bool} {comments : List Comment}
    {bytes : List UInt8} {toks : List Token} (h : scan fuel pos newline comments bytes = some toks) :
    ∃ newline' comments' stop rest, Skips pos bytes newline' comments' stop rest ∧
      (rest = [] ∧ toks = [] ∨ ∃ kind n toks', Leads rest kind n ∧
        toks = ⟨kind, stop, stop.advanceBy (rest.take n), newline || newline', comments ++ comments'⟩
          :: toks' ∧
        Scans (stop.advanceBy (rest.take n)) (rest.drop n) toks') := by
  induction fuel generalizing pos newline comments bytes toks with
  | zero =>
    rw [scan] at h
    split_ifs at h with hempty
    rw [List.isEmpty_iff] at hempty
    subst hempty
    exact ⟨_, _, _, _, .done pos [], Or.inl ⟨rfl, (Option.some.inj h).symm⟩⟩
  | succ fuel ih =>
    cases bytes with
    | nil => exact ⟨_, _, _, _, .done pos [], Or.inl ⟨rfl, (Option.some.inj h).symm⟩⟩
    | cons b bytes =>
      rw [scan] at h
      split_ifs at h with hblank
      · obtain ⟨newline', comments', stop, rest, hskips, hrest⟩ := ih h
        rw [Bool.or_assoc] at hrest
        exact ⟨_, _, _, _, .blank hblank hskips, hrest⟩
      split at h
      · rename_i n hlength
        obtain ⟨newline', comments', stop, rest, hskips, hrest⟩ := ih h
        rw [List.append_assoc] at hrest
        exact ⟨_, _, _, _, .comment hlength hskips, hrest⟩
      split at h
      · simp at h
      · rename_i hcomment _ kind n hlexeme
        obtain ⟨toks', hscan, rfl⟩ := Option.map_eq_some_iff.mp h
        have hleads : Leads (b :: bytes) kind n :=
          ⟨by simpa using hblank, hcomment, hlexeme⟩
        refine ⟨_, _, _, _, .done pos _, Or.inr ⟨kind, n, toks', hleads, by simp, ?_⟩⟩
        obtain ⟨newline', comments', stop, rest, hskips, ⟨rfl, rfl⟩ | hcons⟩ := ih hscan
        · exact .nil hskips
        · obtain ⟨kind', n', toks', hleads', rfl, hrest⟩ := hcons
          exact .cons hskips hleads' rfl hrest

/-- The tokens of a source are scanned from behind its order mark. -/
theorem of_tokens? {source : ByteArray} {toks : List Token} (h : tokens? source = some toks) :
    Scans (textStart source) (source.toList.drop (textStart source).offset) toks := by
  obtain ⟨newline, comments, stop, rest, hskips, ⟨rfl, rfl⟩ | hcons⟩ := exists_skips_of_scan h
  · exact .nil hskips
  · obtain ⟨kind, n, toks', hleads, rfl, hrest⟩ := hcons
    exact .cons hskips hleads rfl hrest

end Scans

/-- Fuel for every byte is enough to skip, and leaves enough. -/
theorem scan_eq_of_skips {pos stop : Position} {bytes rest : List UInt8} {newline : Bool}
    {comments : List Comment} (h : Skips pos bytes newline comments stop rest) {fuel : ℕ}
    (hfuel : bytes.length ≤ fuel) (newline' : Bool) (comments' : List Comment) :
    ∃ fuel', rest.length ≤ fuel' ∧ scan fuel pos newline' comments' bytes =
      scan fuel' stop (newline' || newline) (comments' ++ comments) rest := by
  induction h generalizing fuel newline' comments' with
  | done pos bytes => exact ⟨fuel, hfuel, by simp⟩
  | @blank pos stop b bytes rest newline comments hblank hrest ih =>
    obtain ⟨fuel, rfl⟩ := Nat.exists_eq_add_of_lt (Nat.lt_of_lt_of_le (Nat.succ_pos _) hfuel)
    have hshorter : bytes.length ≤ 0 + fuel := by
      rw [List.length_cons] at hfuel
      omega
    obtain ⟨fuel', hfuel', heq⟩ := ih hshorter (newline' || b == 10) comments'
    refine ⟨fuel', hfuel', ?_⟩
    rw [scan, if_pos hblank, heq, Bool.or_assoc]
  | @comment pos stop bytes rest newline comments n hlength hrest ih =>
    obtain ⟨more, rfl, hn⟩ := exists_cons_of_commentLength? hlength
    obtain ⟨fuel, rfl⟩ := Nat.exists_eq_add_of_lt (Nat.lt_of_lt_of_le (Nat.succ_pos _) hfuel)
    rw [List.length_cons] at hfuel
    have hshorter : ((47 :: more).drop n).length ≤ 0 + fuel := by
      rw [List.length_drop, List.length_cons]
      omega
    obtain ⟨fuel', hfuel', heq⟩ := ih hshorter newline'
      (comments' ++ [⟨pos, pos.advanceBy ((47 :: more).take n)⟩])
    refine ⟨fuel', hfuel', ?_⟩
    rw [scan, if_neg (by decide), hlength]
    simp only
    rw [heq, List.append_assoc, List.singleton_append]

/-- Fuel for every byte is enough to scan. -/
theorem scan_of_scans {pos : Position} {bytes : List UInt8} {toks : List Token}
    (h : Scans pos bytes toks) {fuel : ℕ} (hfuel : bytes.length ≤ fuel) :
    scan fuel pos false [] bytes = some toks := by
  induction h generalizing fuel with
  | nil hskips =>
    obtain ⟨fuel', -, heq⟩ := scan_eq_of_skips hskips hfuel false []
    rw [heq]
    cases fuel' <;> rfl
  | @cons pos bytes rest t toks n hskips hleads hstop hrest ih =>
    obtain ⟨fuel', hfuel', heq⟩ := scan_eq_of_skips hskips hfuel false []
    obtain ⟨hpos, -⟩ := isSpelledBy_of_lexeme? hleads.lexeme
    rw [heq, Bool.false_or, List.nil_append]
    cases rest with
    | nil => exact absurd rfl hleads.ne_nil
    | cons b more =>
      cases fuel' with
      | zero => simp at hfuel'
      | succ fuel' =>
        rw [List.length_cons] at hfuel'
        have hblank : ¬ isSpace b = true := Bool.eq_false_iff.mp (hleads.notBlank b rfl)
        have hshorter : ((b :: more).drop n).length ≤ fuel' := by
          rw [List.length_drop, List.length_cons]
          omega
        rw [scan, if_neg hblank, hleads.notComment, hleads.lexeme]
        simp only
        rw [← hstop, ih hshorter]
        rfl

/-! ## What stands before a token -/

/-- Where the last of some tokens ends; `pos` if there are none. -/
def endOf (pos : Position) (toks : List Token) : Position := (toks.getLast?.map Token.stop).getD pos

@[simp]
theorem endOf_nil (pos : Position) : endOf pos [] = pos := rfl

@[simp]
theorem endOf_cons (pos : Position) (t : Token) (toks : List Token) :
    endOf pos (t :: toks) = endOf t.stop toks := by
  rw [endOf, endOf, List.getLast?_cons]
  cases toks.getLast? <;> rfl

/-- Tokens in a row end where the last of them ends. -/
theorem endOf_append (pos : Position) (toks toks' : List Token) :
    endOf pos (toks ++ toks') = endOf (endOf pos toks) toks' := by
  induction toks generalizing pos with
  | nil => rfl
  | cons t toks ih => rw [List.cons_append, endOf_cons, endOf_cons, ih]

namespace Scans

/-- Each token ends before the place where the next one is looked for. -/
theorem stop_le_endOf {pos : Position} {bytes : List UInt8} {before after : List Token}
    (h : Scans pos bytes (before ++ after)) :
    pos.Le (endOf pos before) ∧ ∀ t ∈ before, t.stop.Le (endOf pos before) := by
  induction before generalizing pos bytes with
  | nil => exact ⟨.refl pos, by simp⟩
  | cons t before ih =>
    rw [List.cons_append] at h
    cases h with
    | @cons _ _ rest _ _ n hskips hleads hstop hrest =>
      obtain ⟨hend, hall⟩ := ih hrest
      have hself : t.start.Le t.stop := hstop ▸ t.start.le_advanceBy (rest.take n)
      rw [endOf_cons]
      refine ⟨(hskips.le_stop.trans hself).trans hend, ?_⟩
      rintro u (_ | ⟨_, hu⟩)
      · exact hend
      · exact hall u hu

/-- From the end of one token, blanks and the comments of the next one lead to that one. -/
theorem skips (front : List UInt8) {bytes : List UInt8} {before after : List Token} {t : Token}
    (h : Scans (Position.start.advanceBy front) bytes (before ++ t :: after)) :
    Skips (endOf (Position.start.advanceBy front) before)
      ((front ++ bytes).drop (endOf (Position.start.advanceBy front) before).offset) t.newline
      t.comments t.start ((front ++ bytes).drop t.start.offset) := by
  have hoffset (front : List UInt8) : (Position.start.advanceBy front).offset = front.length := by
    rw [Position.start_advanceBy]
  induction before generalizing front bytes with
  | nil =>
    cases h with
    | @cons _ _ rest _ _ n hskips hleads hstop hrest =>
      obtain ⟨gap, rfl, hstart⟩ := hskips.exists_gap
      rw [← Position.advanceBy_append] at hstart
      have hdrop : (front ++ (gap ++ rest)).drop t.start.offset = rest := by
        rw [hstart, hoffset, ← List.append_assoc, List.drop_left]
      rw [hdrop, endOf_nil, hoffset, List.drop_left]
      exact hskips
  | cons u before ih =>
    cases h with
    | @cons _ _ rest _ _ n hskips hleads hstop hrest =>
      obtain ⟨gap, rfl, hstart⟩ := hskips.exists_gap
      rw [hstart, ← Position.advanceBy_append, ← Position.advanceBy_append] at hstop
      rw [hstop] at hrest
      have hskips' := ih (front ++ (gap ++ rest.take n)) hrest
      rw [endOf_cons, hstop]
      simpa only [List.append_assoc, List.take_append_drop] using hskips'

/-- From the end of one token of a source, blanks and the comments of the next one lead to that one. -/
theorem skips_of_tokens? {source : ByteArray} {before after : List Token} {t : Token}
    (h : tokens? source = some (before ++ t :: after)) :
    Skips (endOf (textStart source) before)
      (source.toList.drop (endOf (textStart source) before).offset) t.newline t.comments t.start
      (source.toList.drop t.start.offset) := by
  have hskips := skips (orderMark source.toList) (of_tokens? h)
  rwa [orderMark_append_drop] at hskips

end Scans

end Source

end GoComplexity
