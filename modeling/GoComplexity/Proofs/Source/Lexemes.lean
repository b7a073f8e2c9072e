import GoComplexity.Proofs.Source.Numbers

/-!
# Lexemes in front of a blank

A token that ends in front of some place stays the token there when what comes from that place on is
replaced by bytes that start with a blank. The same holds of comments and of there being none, except
for a line comment that goes up to the place, and for the start of a block comment that has no end.
-/

namespace GoComplexity.Source

open Syntax Text

variable {front back rest : List UInt8}

/-! ## Prefixes -/

theorem take_append_congr {n : ℕ} (h : n ≤ front.length) (other : List UInt8) :
    (front ++ other).take n = (front ++ back).take n := by
  rw [List.take_append_of_le_length h, List.take_append_of_le_length h]

/-- Bytes without a blank that come first before a blank come first before anything. -/
theorem prefix_of_prefix_blank {text : List UInt8} (htext : 32 ∉ text)
    (h : text <+: front ++ 32 :: rest) : text <+: front := by
  rcases List.prefix_or_prefix_of_prefix h (List.prefix_append front (32 :: rest)) with hle | hge
  · exact hle
  · obtain ⟨more, rfl⟩ := hge
    have hmore : more <+: 32 :: rest := (List.prefix_append_right_inj front).mp h
    cases more with
    | nil => simp
    | cons b more =>
      rw [(List.cons_prefix_cons.mp hmore).1] at htext
      exact absurd (List.mem_append_right front List.mem_cons_self) htext

/-! ## Words -/

theorem ne_blank_of_continuation? {b : UInt8} {n : ℕ} (h : continuation? b = some n) : b ≠ 32 := by
  rintro rfl
  exact absurd h (by simp [continuation?])

/-- A character at the start of some bytes, which is decoded from its own bytes alone. -/
structure IsChar (bytes : List UInt8) (c : Char) (width : ℕ) : Prop where
  width_le : width ≤ bytes.length
  notBlank : ∀ b ∈ (bytes.take width).tail, b ≠ 32
  decode : ∀ other, decodeChar? (bytes.take width ++ other) = some (c, width)

/-- A decoded character is spelled by its bytes alone, whatever follows them. -/
theorem isChar_of_decodeChar? {bytes : List UInt8} {c : Char} {width : ℕ}
    (h : decodeChar? bytes = some (c, width)) : IsChar bytes c width := by
  rw [decodeChar?.eq_def] at h
  split at h
  · simp at h
  rename_i b rest
  split_ifs at h with hone hcontinues htwo hthree hfour
  · obtain ⟨rfl, rfl⟩ := Prod.mk.inj (Option.some.inj h)
    exact ⟨by simp, by simp, fun other ↦ by simp [decodeChar?, hone]⟩
  all_goals split at h
  any_goals simp at h
  all_goals
    simp only [Option.bind_eq_some_iff, Option.some.injEq, Prod.mk.injEq] at h
  · obtain ⟨n₁, h₁, c, hc, rfl, rfl⟩ := h
    have hblank₁ := ne_blank_of_continuation? h₁
    exact ⟨by simp, by simp [hblank₁],
      fun other ↦ by simp [decodeChar?, hone, hcontinues, htwo, h₁, hc]⟩
  · obtain ⟨n₁, h₁, n₂, h₂, c, hc, rfl, rfl⟩ := h
    have hblank₁ := ne_blank_of_continuation? h₁
    have hblank₂ := ne_blank_of_continuation? h₂
    exact ⟨by simp, by simp [hblank₁, hblank₂],
      fun other ↦ by simp [decodeChar?, hone, hcontinues, htwo, hthree, h₁, h₂, hc]⟩
  · obtain ⟨n₁, h₁, n₂, h₂, n₃, h₃, c, hc, rfl, rfl⟩ := h
    have hblank₁ := ne_blank_of_continuation? h₁
    have hblank₂ := ne_blank_of_continuation? h₂
    have hblank₃ := ne_blank_of_continuation? h₃
    exact ⟨by simp, by simp [hblank₁, hblank₂, hblank₃],
      fun other ↦ by simp [decodeChar?, hone, hcontinues, htwo, hthree, hfour, h₁, h₂, h₃, hc]⟩

/-- A character that ends in front of the place does not depend on what comes behind. -/
theorem decodeChar?_append_congr {c : Char} {width : ℕ}
    (h : decodeChar? (front ++ back) = some (c, width)) (hwidth : width ≤ front.length)
    (other : List UInt8) : decodeChar? (front ++ other) = some (c, width) := by
  have hchar := (isChar_of_decodeChar? h).decode (front.drop width ++ other)
  rwa [List.take_append_of_le_length hwidth, ← List.append_assoc, List.take_append_drop] at hchar

/-- A character that starts in front of a blank ends in front of it. -/
theorem width_le_of_blank {front : List UInt8} (hfront : front ≠ []) {c : Char} {width : ℕ}
    (h : decodeChar? (front ++ 32 :: rest) = some (c, width)) : width ≤ front.length := by
  by_contra hlt
  obtain ⟨b, front, rfl⟩ := List.exists_cons_of_ne_nil hfront
  have hblank : 32 ∈ ((b :: front ++ 32 :: rest).take width).tail := by
    obtain ⟨n, rfl⟩ := Nat.exists_eq_add_of_lt (Nat.lt_of_not_le hlt)
    rw [List.take_append, List.take_of_length_le (by omega), Nat.add_assoc, Nat.add_sub_cancel_left]
    simp
  exact (isChar_of_decodeChar? h).notBlank 32 hblank rfl

/-- A character that is decoded in front of a blank is decoded in front of anything. -/
theorem decodeChar?_of_blank {front : List UInt8} (hfront : front ≠ []) {x : Char × ℕ}
    (h : decodeChar? (front ++ 32 :: rest) = some x) (other : List UInt8) :
    decodeChar? (front ++ other) = some x :=
  decodeChar?_append_congr h (width_le_of_blank hfront h) other

/-- The rest of a word that goes on with a character of several bytes. -/
def wideTail (fuel : ℕ) (bytes : List UInt8) : ℕ :=
  match decodeChar? bytes with
  | some (c, width) => if continuesIdentifier c then width + wordTail fuel (bytes.drop width) else 0
  | none => 0

theorem wordTail_cons (fuel : ℕ) (b : UInt8) (bytes : List UInt8) :
    wordTail (fuel + 1) (b :: bytes) =
      if b < 0x80 then if isAsciiLetter b || isDecimal b then 1 + wordTail fuel bytes else 0
      else wideTail fuel (b :: bytes) := rfl

theorem wideTail_of_not_continues {fuel : ℕ} {bytes : List UInt8}
    (h : ∀ c width, decodeChar? bytes = some (c, width) → continuesIdentifier c = false) :
    wideTail fuel bytes = 0 := by
  rw [wideTail]
  split
  · rename_i c width hdecode
    rw [h c width hdecode]
    rfl
  · rfl

/-- The same for a tail that starts with a character of several bytes. -/
theorem wideTail_blank {fuel fuel' : ℕ} {front : List UInt8} (hfront : front ≠ [])
    (hlater : ∀ width, 0 < width → width ≤ front.length →
      wordTail fuel (front.drop width ++ back) ≤ (front.drop width).length →
      wordTail fuel' (front.drop width ++ 32 :: rest) = wordTail fuel (front.drop width ++ back))
    (h : wideTail fuel (front ++ back) ≤ front.length) :
    wideTail fuel' (front ++ 32 :: rest) = wideTail fuel (front ++ back) := by
  by_cases hcontinues : ∃ c width, decodeChar? (front ++ back) = some (c, width) ∧
      continuesIdentifier c = true
  · obtain ⟨c, width, hdecode, hc⟩ := hcontinues
    rw [wideTail, hdecode] at h
    simp only [hc, if_true] at h
    have hwidth : width ≤ front.length := by omega
    have hrest := decodeChar?_append_congr hdecode hwidth (32 :: rest)
    rw [List.drop_append_of_le_length hwidth] at h
    have htail := hlater width (pos_of_decodeChar? hdecode) hwidth (by rw [List.length_drop]; omega)
    rw [wideTail, wideTail, hdecode, hrest]
    simp only [hc, if_true]
    rw [List.drop_append_of_le_length hwidth, List.drop_append_of_le_length hwidth, htail]
  · have hnone (c : Char) (width : ℕ) (hdecode : decodeChar? (front ++ back) = some (c, width)) :
        continuesIdentifier c = false :=
      Bool.eq_false_iff.mpr fun hc ↦ hcontinues ⟨c, width, hdecode, hc⟩
    rw [wideTail_of_not_continues hnone, wideTail_of_not_continues]
    exact fun c width hdecode ↦ hnone c width (decodeChar?_of_blank hfront hdecode back)

theorem wordTail_of_blank (fuel : ℕ) : wordTail fuel (32 :: rest) = 0 := by
  cases fuel <;> rfl

/-- A word that ends in front of the place still ends there. -/
theorem wordTail_blank {fuel fuel' : ℕ} (front : List UInt8) (hfuel : (front ++ back).length ≤ fuel)
    (hfuel' : (front ++ 32 :: rest).length ≤ fuel')
    (h : wordTail fuel (front ++ back) ≤ front.length) :
    wordTail fuel' (front ++ 32 :: rest) = wordTail fuel (front ++ back) := by
  induction fuel generalizing front fuel' with
  | zero =>
    obtain ⟨rfl, rfl⟩ := List.append_eq_nil_iff.mp (List.eq_nil_of_length_eq_zero (Nat.le_zero.mp hfuel))
    exact wordTail_of_blank fuel'
  | succ fuel ih =>
    rcases front with _ | ⟨b, front⟩
    · rw [Nat.le_zero.mp h, List.nil_append, wordTail_of_blank]
    rcases fuel' with _ | fuel'
    · simp at hfuel'
    rw [List.cons_append, wordTail_cons] at h
    rw [List.cons_append, List.cons_append, wordTail_cons, wordTail_cons]
    rw [List.length_append, List.length_cons] at hfuel hfuel'
    split_ifs at h ⊢ with hascii hletter
    · rw [List.length_cons] at h
      rw [ih front (by rw [List.length_append]; omega) (by rw [List.length_append]; omega) (by omega)]
    · rfl
    · refine wideTail_blank (List.cons_ne_nil b front) (fun width hpos hwidth ↦ ?_) h
      refine ih _ ?_ ?_ <;>
      · rw [List.length_append, List.length_drop, List.length_cons]
        omega

/-- The length of a word that starts with a letter. -/
theorem wordLength?_of_starts {bytes : List UInt8} {c : Char} {width : ℕ}
    (hdecode : decodeChar? bytes = some (c, width)) (hc : startsIdentifier c = true) :
    wordLength? bytes = some (width + wordTail (bytes.drop width).length (bytes.drop width)) := by
  rw [wordLength?, hdecode]
  exact if_pos hc

theorem wordLength?_of_not_starts {bytes : List UInt8}
    (h : ∀ c width, decodeChar? bytes = some (c, width) → startsIdentifier c = false) :
    wordLength? bytes = none := by
  rw [wordLength?]
  cases hdecode : decodeChar? bytes with
  | none => rfl
  | some x => exact if_neg (Bool.eq_false_iff.mp (h x.1 x.2 hdecode))

/-- A word that ends in front of the place stays, and so does there being none. -/
theorem wordLength?_blank {front : List UInt8} (hfront : front ≠ [])
    (h : ∀ n, wordLength? (front ++ back) = some n → n ≤ front.length) :
    wordLength? (front ++ 32 :: rest) = wordLength? (front ++ back) := by
  by_cases hstarts : ∃ c width, decodeChar? (front ++ back) = some (c, width) ∧
      startsIdentifier c = true
  · obtain ⟨c, width, hdecode, hc⟩ := hstarts
    have hle := h _ (wordLength?_of_starts hdecode hc)
    have hwidth : width ≤ front.length := by omega
    have hrest := decodeChar?_append_congr hdecode hwidth (32 :: rest)
    rw [List.drop_append_of_le_length hwidth] at hle
    rw [wordLength?_of_starts hdecode hc, wordLength?_of_starts hrest hc,
      List.drop_append_of_le_length hwidth, List.drop_append_of_le_length hwidth,
      wordTail_blank (front.drop width) (Nat.le_refl _) (Nat.le_refl _)]
    rw [List.length_drop]
    omega
  · have hnone (c : Char) (width : ℕ) (hdecode : decodeChar? (front ++ back) = some (c, width)) :
        startsIdentifier c = false :=
      Bool.eq_false_iff.mpr fun hc ↦ hstarts ⟨c, width, hdecode, hc⟩
    rw [wordLength?_of_not_starts hnone, wordLength?_of_not_starts]
    exact fun c width hdecode ↦ hnone c width (decodeChar?_of_blank hfront hdecode back)

/-! ## Strings and runes -/

theorem pos_of_rawEnd? {bytes : List UInt8} {n : ℕ} (h : rawEnd? bytes = some n) : 0 < n := by
  rw [rawEnd?.eq_def] at h
  split at h
  · simp at h
  · simp [← Option.some.inj h]
  · simp at h
  · obtain ⟨m, -, rfl⟩ := Option.map_eq_some_iff.mp h
    exact Nat.succ_pos m

/-- A raw string is closed by its own bytes. -/
theorem rawEnd?_append_congr {n : ℕ} (h : rawEnd? (front ++ back) = some n) (hn : n ≤ front.length)
    (other : List UInt8) : rawEnd? (front ++ other) = some n := by
  induction front generalizing n with
  | nil => exact absurd (pos_of_rawEnd? h) (by simpa using hn)
  | cons b front ih =>
    rw [List.cons_append] at h ⊢
    by_cases hclose : b = 96
    · subst hclose
      exact h
    by_cases hnull : b = 0
    · subst hnull
      simp [rawEnd?] at h
    rw [rawEnd?.eq_4 _ _ hclose hnull] at h ⊢
    obtain ⟨m, hm, rfl⟩ := Option.map_eq_some_iff.mp h
    rw [ih hm (Nat.le_of_succ_le_succ hn), Option.map_some]

theorem hexDigitsAhead_append_congr {n : ℕ} (hn : n ≤ front.length) (other : List UInt8) :
    hexDigitsAhead n (front ++ other) = hexDigitsAhead n (front ++ back) := by
  rw [hexDigitsAhead, hexDigitsAhead, take_append_congr hn]

theorem pos_of_quotedEnd? {state : QuotedState} {bytes : List UInt8} {n : ℕ}
    (h : quotedEnd? state bytes = some n) : 0 < n := by
  rw [quotedEnd?.eq_def] at h
  split at h
  · simp at h
  split_ifs at h
  · simp [← Option.some.inj h]
  split at h
  · simp at h
  · obtain ⟨m, -, rfl⟩ := Option.map_eq_some_iff.mp h
    exact Nat.succ_pos m

/-- The end of a string does not depend on what comes behind it. -/
theorem quotedEnd?_append_congr {state : QuotedState} {n : ℕ}
    (h : quotedEnd? state (front ++ back) = some n) (hn : n ≤ front.length) (other : List UInt8) :
    quotedEnd? state (front ++ other) = some n := by
  induction front generalizing state n with
  | nil => exact absurd (pos_of_quotedEnd? h) (by simpa using hn)
  | cons b front ih =>
    rw [List.cons_append, quotedEnd?] at h ⊢
    split_ifs at h ⊢ with hclose
    · exact h
    · cases hnext : state.next? b with
      | none => simp [hnext] at h
      | some state' =>
        simp only [hnext] at h ⊢
        obtain ⟨m, hm, rfl⟩ := Option.map_eq_some_iff.mp h
        rw [ih hm (Nat.le_of_succ_le_succ hn), Option.map_some]

/-- An escape is read off its own bytes. -/
theorem runeEscape?_append_congr {n : ℕ} (h : runeEscape? (front ++ back) = some n)
    (hn : n ≤ front.length) (other : List UInt8) : runeEscape? (front ++ other) = some n := by
  cases front with
  | nil =>
    have hpos : 0 < n := by
      rw [List.nil_append, runeEscape?.eq_def] at h
      split at h
      · simp at h
      · split_ifs at h
        all_goals
          have := Option.some.inj h
          omega
    exact absurd hpos (by simpa using hn)
  | cons e front =>
    rw [List.length_cons] at hn
    rw [List.cons_append, runeEscape?] at h ⊢
    by_cases hhex : escapeDigits e ≠ 0
    · rw [if_pos hhex] at h ⊢
      split_ifs at h with hdigits
      have hle : escapeDigits e ≤ front.length := by
        have := Option.some.inj h
        omega
      rw [hexDigitsAhead_append_congr hle, if_pos hdigits, h]
    · rw [if_neg hhex] at h ⊢
      by_cases hoctal : isOctal e = true
      · rw [if_pos hoctal] at h ⊢
        split_ifs at h with hdigits
        have hle : 2 ≤ front.length := by
          have := Option.some.inj h
          omega
        have htake : (front ++ other).take 2 = (front ++ back).take 2 := take_append_congr hle other
        rw [htake, if_pos hdigits, h]
      · rw [if_neg hoctal] at h ⊢
        exact h

/-- The length of the character or escape in a rune literal. -/
def runeBody? : List UInt8 → Option ℕ
  | [] => none
  | 0 :: _ => none
  | 39 :: _ => none
  | 92 :: rest => (runeEscape? rest).map (· + 1)
  | bytes => some (((decodeChar? bytes).map (·.2)).getD 1)

/-- A rune is its one character or escape, and a closing quote. -/
theorem runeEnd?_eq (bytes : List UInt8) : runeEnd? bytes =
    (runeBody? bytes).bind fun n ↦ match bytes.drop n with
      | 39 :: _ => some (n + 1)
      | _ => none := by
  rw [runeEnd?.eq_def]
  split
  · rfl
  · rfl
  · rfl
  · rfl
  · rename_i hnil hnull hquote hescape
    rw [runeBody?.eq_5 bytes hnil hnull hquote hescape]
    rfl

theorem runeBody?_blank {n : ℕ} (h : runeBody? (front ++ back) = some n) (hn : n < front.length) :
    runeBody? (front ++ 32 :: rest) = some n := by
  rcases front with _ | ⟨b, front⟩
  · simp at hn
  rw [List.cons_append] at h ⊢
  by_cases hescape : b = 92
  · subst hescape
    obtain ⟨m, hm, rfl⟩ := Option.map_eq_some_iff.mp h
    have hle : m ≤ front.length := by simpa using Nat.le_of_lt hn
    exact Option.map_eq_some_iff.mpr ⟨m, runeEscape?_append_congr hm hle _, rfl⟩
  have hplain (bytes : List UInt8) (hnull : b ≠ 0) (hquote : b ≠ 39) :
      runeBody? (b :: bytes) = some (((decodeChar? (b :: bytes)).map (·.2)).getD 1) :=
    runeBody?.eq_5 _ (List.cons_ne_nil b bytes) (fun _ heq ↦ hnull (List.cons.inj heq).1)
      (fun _ heq ↦ hquote (List.cons.inj heq).1) fun _ heq ↦ hescape (List.cons.inj heq).1
  have hnull : b ≠ 0 := by
    rintro rfl
    simp [runeBody?] at h
  have hquote : b ≠ 39 := by
    rintro rfl
    simp [runeBody?] at h
  rw [hplain _ hnull hquote] at h ⊢
  cases hdecode : decodeChar? (b :: (front ++ back)) with
  | none =>
    have hnone : decodeChar? (b :: (front ++ 32 :: rest)) = none := by
      refine Option.eq_none_iff_forall_ne_some.mpr fun x hx ↦ ?_
      have hsome := decodeChar?_of_blank (List.cons_ne_nil b front) hx back
      rw [List.cons_append, hdecode] at hsome
      cases hsome
    rwa [hnone, ← hdecode]
  | some x =>
    rw [hdecode] at h
    have hwidth : x.2 ≤ (b :: front).length := by
      have hx : x.2 = n := Option.some.inj h
      exact hx ▸ Nat.le_of_lt hn
    rw [← List.cons_append] at hdecode
    rw [← List.cons_append, decodeChar?_append_congr hdecode hwidth (32 :: rest), h]

/-- A rune in front of the place is read as before. -/
theorem runeEnd?_blank {n : ℕ} (h : runeEnd? (front ++ back) = some n) (hn : n ≤ front.length) :
    runeEnd? (front ++ 32 :: rest) = some n := by
  rw [runeEnd?_eq] at h
  obtain ⟨m, hm, h⟩ := Option.bind_eq_some_iff.mp h
  split at h
  · rename_i tail hdrop
    obtain rfl := Option.some.inj h
    rw [runeEnd?_eq, runeBody?_blank hm hn, Option.bind_some]
    rw [List.drop_append_of_le_length (Nat.le_of_lt hn), List.drop_eq_getElem_cons hn] at hdrop ⊢
    rw [(List.cons.inj hdrop).1]
    rfl
  · simp at h

/-! ## Marks -/

/-- The longest mark in front of the place stays the longest one. -/
theorem mark?_blank {kind : TokenKind} {n : ℕ} (h : mark? (front ++ back) = some (kind, n))
    (hn : n ≤ front.length) : mark? (front ++ 32 :: rest) = some (kind, n) := by
  have hblank : ∀ m ∈ marks, (32 : UInt8) ∉ utf8 m := by decide +kernel
  obtain ⟨m, hfind, heq⟩ := Option.map_eq_some_iff.mp h
  obtain ⟨rfl, rfl⟩ := Prod.mk.inj heq
  obtain ⟨hm, before, after, hmarks, hbefore⟩ := List.find?_eq_some_iff_append.mp hfind
  rw [← length_utf8] at hn
  have hstarts : startsWith (front ++ 32 :: rest) m = true := by
    have hfront : utf8 m <+: front :=
      List.prefix_of_prefix_length_le (List.isPrefixOf_iff_prefix.mp hm) (List.prefix_append _ _) hn
    exact List.isPrefixOf_iff_prefix.mpr (hfront.trans (List.prefix_append _ _))
  have hfind' : marks.find? (startsWith (front ++ 32 :: rest)) = some m := by
    refine List.find?_eq_some_iff_append.mpr ⟨hstarts, before, after, hmarks, ?_⟩
    intro m' hm'
    rw [Bool.not_eq_true', Bool.eq_false_iff]
    intro hstarts'
    -- a mark has no blank in it, so it would have been found before
    have hmem : m' ∈ marks := hmarks ▸ List.mem_append_left _ hm'
    have hfront := prefix_of_prefix_blank (hblank m' hmem) (List.isPrefixOf_iff_prefix.mp hstarts')
    have hearlier : startsWith (front ++ back) m' = true :=
      List.isPrefixOf_iff_prefix.mpr (hfront.trans (List.prefix_append _ _))
    simpa [hearlier] using hbefore m' hm'
  rw [mark?, hfind', Option.map_some]

/-! ## Lexemes -/

/-- What a token is, if it is no word. -/
def symbol? : List UInt8 → Option (TokenKind × ℕ)
  | 34 :: rest => (quotedEnd? (.text 0) rest).map fun n ↦ (.lit .string, n + 1)
  | 96 :: rest => (rawEnd? rest).map fun n ↦ (.lit .string, n + 1)
  | 39 :: rest => (runeEnd? rest).map fun n ↦ (.lit .char, n + 1)
  | bytes => (number? bytes).or (mark? bytes)

/-- A word is tried first, and any other lexeme next. -/
theorem lexeme?_eq (bytes : List UInt8) : lexeme? bytes =
    match wordLength? bytes with
    | some n => some (.word (textOf ⟨(bytes.take n).toArray⟩), n)
    | none => symbol? bytes := by
  fun_cases lexeme? bytes with
  | case1 m _ hword => rw [hword]
  | case2 rest hword => rw [hword]; rfl
  | case3 rest hword => rw [hword]; rfl
  | case4 rest hword => rw [hword]; rfl
  | case5 _ hword hquoted hraw hrune => rw [hword, symbol?.eq_4 bytes hquoted hraw hrune]

theorem lexeme?_of_word {bytes : List UInt8} {m : ℕ} (h : wordLength? bytes = some m) :
    lexeme? bytes = some (.word (textOf ⟨(bytes.take m).toArray⟩), m) := by
  rw [lexeme?_eq, h]

theorem lexeme?_of_no_word {bytes : List UInt8} (h : wordLength? bytes = none) :
    lexeme? bytes = symbol? bytes := by
  rw [lexeme?_eq, h]

/-- A literal that ends in front of the place stays, if what follows its opening quote does. -/
theorem map_quoted_congr {lit : LitKind} {stop stop' : Option ℕ} {kind : TokenKind} {n m : ℕ}
    (h : stop.map (fun n ↦ (TokenKind.lit lit, n + 1)) = some (kind, n)) (hn : n ≤ m + 1)
    (hstop : ∀ k, stop = some k → k ≤ m → stop' = some k) :
    stop'.map (fun n ↦ (TokenKind.lit lit, n + 1)) = some (kind, n) := by
  obtain ⟨k, hk, heq⟩ := Option.map_eq_some_iff.mp h
  have hle : k ≤ m := by
    have := (Prod.mk.inj heq).2
    omega
  rw [hstop k hk hle, Option.map_some, heq]

/-- What is no word is read as before, if it ends in front of the place. -/
theorem symbol?_blank {kind : TokenKind} {n : ℕ} (h : symbol? (front ++ back) = some (kind, n))
    (hfront : front ≠ []) (hn : n ≤ front.length) : symbol? (front ++ 32 :: rest) = some (kind, n) := by
  rcases front with _ | ⟨b, front⟩
  · exact absurd rfl hfront
  rw [List.cons_append] at h ⊢
  by_cases hquoted : b = 34
  · subst hquoted
    exact map_quoted_congr h hn fun k hk hle ↦ quotedEnd?_append_congr hk hle _
  by_cases hraw : b = 96
  · subst hraw
    exact map_quoted_congr h hn fun k hk hle ↦ rawEnd?_append_congr hk hle _
  by_cases hrune : b = 39
  · subst hrune
    exact map_quoted_congr h hn fun k hk hle ↦ runeEnd?_blank hk hle
  have hother (bytes : List UInt8) :
      symbol? (b :: bytes) = (number? (b :: bytes)).or (mark? (b :: bytes)) :=
    symbol?.eq_4 _ (fun _ heq ↦ hquoted (List.cons.inj heq).1)
      (fun _ heq ↦ hraw (List.cons.inj heq).1) fun _ heq ↦ hrune (List.cons.inj heq).1
  rw [hother] at h ⊢
  rw [← List.cons_append] at h ⊢
  have hnumber : number? (b :: front ++ 32 :: rest) = number? (b :: front ++ back) := by
    refine number?_blank hfront fun kind' m hm ↦ ?_
    rw [hm, Option.some_or] at h
    cases h
    exact hn
  rw [hnumber]
  rcases Option.or_eq_some_iff.mp h with hsome | ⟨hnone, hmark⟩
  · rw [hsome, Option.some_or]
  · rw [hnone, Option.none_or]
    exact mark?_blank hmark hn

/-- A token that ends in front of the place stays. -/
theorem lexeme?_blank {kind : TokenKind} {n : ℕ} (h : lexeme? (front ++ back) = some (kind, n))
    (hn : n ≤ front.length) : lexeme? (front ++ 32 :: rest) = some (kind, n) := by
  have hpos := (isSpelledBy_of_lexeme? h).1
  have hfront : front ≠ [] := List.ne_nil_of_length_pos (Nat.lt_of_lt_of_le hpos hn)
  have hword : wordLength? (front ++ 32 :: rest) = wordLength? (front ++ back) := by
    refine wordLength?_blank hfront fun m hm ↦ ?_
    rw [lexeme?_of_word hm, Option.some.injEq, Prod.mk.injEq] at h
    exact h.2.trans_le hn
  cases hlength : wordLength? (front ++ back) with
  | none =>
    rw [hlength] at hword
    rw [lexeme?_of_no_word hlength] at h
    rw [lexeme?_of_no_word hword]
    exact symbol?_blank h hfront hn
  | some m =>
    rw [hlength] at hword
    rw [lexeme?_of_word hlength] at h
    have hm : m ≤ front.length := by
      rw [Option.some.injEq, Prod.mk.injEq] at h
      exact h.2.trans_le hn
    rw [lexeme?_of_word hword, take_append_congr hm, h]

/-! ## Comments -/

/-- A block comment ends with two bytes. -/
theorem two_le_of_blockEnd? {bytes : List UInt8} {n : ℕ} (h : blockEnd? bytes = some n) : 2 ≤ n := by
  fun_induction blockEnd? bytes generalizing n with
  | case1 => exact Nat.le_of_eq (Option.some.inj h)
  | case2 => simp at h
  | case3 _ _ _ _ ih =>
    obtain ⟨m, hm, rfl⟩ := Option.map_eq_some_iff.mp h
    exact Nat.le_succ_of_le (ih hm)
  | case4 => simp at h

/-- The end of a block comment does not depend on what comes behind it. -/
theorem blockEnd?_append_congr {n : ℕ} (h : blockEnd? (front ++ back) = some n)
    (hn : n ≤ front.length) (other : List UInt8) : blockEnd? (front ++ other) = some n := by
  generalize hbytes : front ++ back = bytes at h
  fun_induction blockEnd? bytes generalizing front n with
  | case1 tail =>
    obtain rfl := Option.some.inj h
    rcases front with _ | ⟨b, _ | ⟨b', front⟩⟩
    · simp at hn
    · simp at hn
    · simp only [List.cons_append, List.cons.injEq] at hbytes
      obtain ⟨rfl, rfl, -⟩ := hbytes
      rfl
  | case2 => simp at h
  | case3 b tail hend hnull ih =>
    obtain ⟨m, hm, rfl⟩ := Option.map_eq_some_iff.mp h
    rcases front with _ | ⟨b', front⟩
    · simp at hn
    · simp only [List.cons_append, List.cons.injEq] at hbytes
      obtain ⟨rfl, rfl⟩ := hbytes
      have hle : m ≤ front.length := Nat.le_of_succ_le_succ hn
      have hend' : ∀ tail, b' = 42 → front ++ other = 47 :: tail → False := by
        intro tail hb htail
        rcases front with _ | ⟨c, front⟩
        · have := two_le_of_blockEnd? hm
          simp at hle
          omega
        · exact hend (front ++ back) hb (by rw [List.cons_append, (List.cons.inj htail).1])
      rw [List.cons_append, blockEnd?.eq_3 _ _ hend' hnull, ih hle rfl hm, Option.map_some]
  | case4 => simp at h

/-- A null byte before the end of a block comment leaves it without one. -/
theorem blockEnd?_eq_none_congr (hnull : 0 ∈ front) (h : blockEnd? (front ++ back) = none)
    (other : List UInt8) : blockEnd? (front ++ other) = none := by
  generalize hbytes : front ++ back = bytes at h
  fun_induction blockEnd? bytes generalizing front with
  | case1 => simp at h
  | case2 tail =>
    rcases front with _ | ⟨b, front⟩
    · simp at hnull
    · rw [List.cons_append, (List.cons.inj hbytes).1]
      rfl
  | case3 b tail hend hb ih =>
    rw [Option.map_eq_none_iff] at h
    rcases front with _ | ⟨b', front⟩
    · simp at hnull
    · simp only [List.cons_append, List.cons.injEq] at hbytes
      obtain ⟨rfl, rfl⟩ := hbytes
      have hnull' : 0 ∈ front := (List.mem_cons.mp hnull).resolve_left fun heq ↦ hb heq.symm
      have hend' : ∀ tail, b' = 42 → front ++ other = 47 :: tail → False := by
        intro tail hb' htail
        rcases front with _ | ⟨c, front⟩
        · simp at hnull'
        · exact hend (front ++ back) hb' (by rw [List.cons_append, (List.cons.inj htail).1])
      rw [List.cons_append, blockEnd?.eq_3 _ _ hend' hb, ih hnull' rfl h, Option.map_none]
  | case4 => simp [(List.append_eq_nil_iff.mp hbytes).1] at hnull

/-- The bytes that a line comment goes on over. -/
def staysOnLine (b : UInt8) : Bool := b != 10 && b != 0

theorem commentLength?_line (bytes : List UInt8) :
    commentLength? (47 :: 47 :: bytes) = some (2 + (bytes.takeWhile staysOnLine).length) := rfl

theorem commentLength?_block (bytes : List UInt8) :
    commentLength? (47 :: 42 :: bytes) = (blockEnd? bytes).map (· + 2) := rfl

/-- The two kinds of comments. -/
theorem commentLength?_cases {bytes : List UInt8} {n : ℕ} (h : commentLength? bytes = some n) :
    (∃ more, bytes = 47 :: 47 :: more ∧ n = 2 + (more.takeWhile staysOnLine).length) ∨
      ∃ more m, bytes = 47 :: 42 :: more ∧ blockEnd? more = some m ∧ n = m + 2 := by
  rw [commentLength?.eq_def] at h
  split at h
  · exact Or.inl ⟨_, rfl, (Option.some.inj h).symm⟩
  · obtain ⟨m, hm, rfl⟩ := Option.map_eq_some_iff.mp h
    exact Or.inr ⟨_, m, rfl, hm, rfl⟩
  · simp at h

/-- A comment that ends in front of the place stays. -/
theorem commentLength?_append_congr {n : ℕ} (h : commentLength? (front ++ back) = some n)
    (hn : n < front.length) (other : List UInt8) : commentLength? (front ++ other) = some n := by
  rcases front with _ | ⟨b, _ | ⟨b', front⟩⟩
  · simp at hn
  · obtain ⟨_, -, htwo⟩ := exists_cons_of_commentLength? h
    simp at hn
    omega
  rw [List.length_cons, List.length_cons] at hn
  rcases commentLength?_cases h with ⟨more, heq, rfl⟩ | ⟨more, m, heq, hm, rfl⟩
  · simp only [List.cons_append, List.cons.injEq] at heq
    obtain ⟨rfl, rfl, rfl⟩ := heq
    have hlength : (front.takeWhile staysOnLine).length ≠ front.length := by
      intro hall
      rw [List.takeWhile_append, if_pos hall, List.length_append] at hn
      omega
    rw [List.takeWhile_append, if_neg hlength]
    rw [List.cons_append, List.cons_append, commentLength?_line, List.takeWhile_append, if_neg hlength]
  · simp only [List.cons_append, List.cons.injEq] at heq
    obtain ⟨rfl, rfl, rfl⟩ := heq
    rw [List.cons_append, List.cons_append, commentLength?_block,
      blockEnd?_append_congr hm (by omega) other, Option.map_some]

/-- A comment that ends at the place stays if it is a block comment, and takes in what comes behind it
if it is a line comment and that has no line break. -/
theorem commentLength?_at_end {more : List UInt8}
    (h : commentLength? (front ++ back) = some front.length)
    (hmore : ∀ b ∈ more, staysOnLine b = true) :
    (∀ other, commentLength? (front ++ other) = some front.length) ∨
      commentLength? (front ++ (more ++ back)) = some (front.length + more.length) := by
  obtain ⟨_, -, htwo⟩ := exists_cons_of_commentLength? h
  rcases front with _ | ⟨b, _ | ⟨b', front⟩⟩
  · simp at htwo
  · simp at htwo
  rw [List.length_cons, List.length_cons] at h ⊢
  rcases commentLength?_cases h with ⟨tail, heq, hlength⟩ | ⟨tail, m, heq, hm, hlength⟩
  · right
    simp only [List.cons_append, List.cons.injEq] at heq
    obtain ⟨rfl, rfl, rfl⟩ := heq
    have hall : (front.takeWhile staysOnLine).length = front.length := by
      rw [List.takeWhile_append] at hlength
      split_ifs at hlength with hall
      · exact hall
      · omega
    have hback : (back.takeWhile staysOnLine).length = 0 := by
      rw [List.takeWhile_append, if_pos hall, List.length_append] at hlength
      omega
    rw [List.cons_append, List.cons_append, commentLength?_line, List.takeWhile_append, if_pos hall,
      List.takeWhile_append_of_pos hmore, List.length_append, List.length_append, hback]
    congr 1
    omega
  · left
    intro other
    simp only [List.cons_append, List.cons.injEq] at heq
    obtain ⟨rfl, rfl, rfl⟩ := heq
    rw [List.cons_append, List.cons_append, commentLength?_block,
      blockEnd?_append_congr hm (by omega) other, Option.map_some, ← hlength]

/-- Whether some bytes start a block comment that has no end and no null byte in them. -/
def OpensComment (bytes : List UInt8) : Prop := ∃ more, bytes = 47 :: 42 :: more ∧ 0 ∉ more

instance (bytes : List UInt8) : Decidable (OpensComment bytes) :=
  decidable_of_iff (bytes.take 2 = [47, 42] ∧ 0 ∉ bytes.drop 2) <| by
    constructor
    · rintro ⟨htake, hnull⟩
      refine ⟨bytes.drop 2, ?_, hnull⟩
      rw [← List.take_append_drop 2 bytes, htake]
      rfl
    · rintro ⟨more, rfl, hnull⟩
      exact ⟨rfl, hnull⟩

/-- Where there is no comment, there is none in front of a blank, unless a block comment without an end
starts there. -/
theorem commentLength?_blank {front : List UInt8} (hfront : front ≠ []) (hopens : ¬ OpensComment front)
    (h : commentLength? (front ++ back) = none) : commentLength? (front ++ 32 :: rest) = none := by
  refine Option.eq_none_iff_forall_ne_some.mpr fun n hn ↦ ?_
  rcases front with _ | ⟨b, _ | ⟨b', front⟩⟩
  · exact hfront rfl
  · rcases commentLength?_cases hn with ⟨tail, heq, -⟩ | ⟨tail, m, heq, -, -⟩ <;>
    · simp only [List.cons_append, List.nil_append, List.cons.injEq] at heq
      exact absurd heq.2.1 (by decide)
  rcases commentLength?_cases hn with ⟨tail, heq, -⟩ | ⟨tail, m, heq, hm, -⟩
  · simp only [List.cons_append, List.cons.injEq] at heq
    obtain ⟨rfl, rfl, -⟩ := heq
    rw [List.cons_append, List.cons_append, commentLength?_line] at h
    cases h
  · simp only [List.cons_append, List.cons.injEq] at heq
    obtain ⟨rfl, rfl, rfl⟩ := heq
    have hnull : 0 ∈ front := Classical.not_not.mp fun hnot ↦ hopens ⟨front, rfl, hnot⟩
    rw [List.cons_append, List.cons_append, commentLength?_block, Option.map_eq_none_iff] at h
    rw [blockEnd?_eq_none_congr hnull h] at hm
    cases hm

end GoComplexity.Source
