import GoComplexity.Proofs.Source.Scanning

/-!
# Numbers in front of a blank

The number at some place is the longest literal there, so finding it may look at bytes behind it. If the
number ends in front of a place, then it stays the number when what comes from that place on is replaced
by bytes that start with a blank: looking further can only have found nothing, and behind a blank there
is nothing to find.
-/

namespace GoComplexity.Source

open Syntax Text

variable {front back rest : List UInt8}

/-! ## Digits -/

/-- A length that counts only together with some bytes before it. -/
def lifted (skip : ℕ) : ℕ → ℕ
  | 0 => 0
  | n + 1 => n + 1 + skip

theorem le_of_lifted {skip n m : ℕ} (h : lifted skip n ≤ m + skip) : n ≤ m := by
  cases n with
  | zero => exact Nat.zero_le m
  | succ n => exact Nat.le_of_add_le_add_right h

theorem lt_of_lifted {skip n m : ℕ} (h : m + skip < lifted skip n) : m < n := by
  cases n with
  | zero => simp [lifted] at h
  | succ n => exact Nat.lt_of_add_lt_add_right h

theorem lifted_eq_zero {skip n : ℕ} (h : lifted skip n ≤ skip) : lifted skip n = 0 := by
  rw [Nat.le_zero.mp (le_of_lifted (h.trans_eq (Nat.zero_add skip).symm)), lifted]

theorem digitsRest_cons (p : UInt8 → Bool) (b : UInt8) (bytes : List UInt8) :
    digitsRest p (b :: bytes) =
      if p b then 1 + digitsRest p bytes
      else if byteIs b '_' then lifted 1 (digitsLength p bytes) else 0 := by
  rw [digitsRest]
  cases digitsLength p bytes with
  | zero => rfl
  | succ n => simp only [lifted, Nat.add_comm 1]

theorem prefixedDigits_cons (p : UInt8 → Bool) (b : UInt8) (bytes : List UInt8) :
    prefixedDigits p (b :: bytes) =
      if byteIs b '_' then lifted 1 (digitsLength p bytes) else digitsLength p (b :: bytes) := by
  rw [prefixedDigits]
  cases digitsLength p bytes <;> rfl

/-- Bytes where no number goes on. -/
def Halts (bytes : List UInt8) : Prop := ∃ rest, bytes = 32 :: rest ∨ bytes = 95 :: 32 :: rest

section Digits

variable {p : UInt8 → Bool} (hp : p 32 = false)

include hp

mutual

/-- Digits that end in front of the place are counted as before. -/
theorem digitsLength_blank (front : List UInt8) (h : digitsLength p (front ++ back) ≤ front.length) :
    digitsLength p (front ++ 32 :: rest) = digitsLength p (front ++ back) := by
  cases front with
  | nil =>
    rw [Nat.le_zero.mp h, List.nil_append, digitsLength, hp]
    rfl
  | cons b front =>
    rw [List.cons_append, digitsLength] at h ⊢
    rw [List.cons_append, digitsLength]
    split_ifs at h ⊢ with hb
    · rw [digitsRest_blank front (by rw [List.length_cons] at h; omega)]
    · rfl

/-- The same for the digits behind the first one. -/
theorem digitsRest_blank (front : List UInt8) (h : digitsRest p (front ++ back) ≤ front.length) :
    digitsRest p (front ++ 32 :: rest) = digitsRest p (front ++ back) := by
  cases front with
  | nil =>
    rw [Nat.le_zero.mp h, List.nil_append, digitsRest, hp]
    rfl
  | cons b front =>
    rw [List.cons_append, digitsRest_cons] at h ⊢
    rw [List.cons_append, digitsRest_cons]
    split_ifs at h ⊢ with hb hunderscore
    · rw [digitsRest_blank front (by rw [List.length_cons] at h; omega)]
    · rw [digitsLength_blank front (le_of_lifted h)]
    · rfl

end

mutual

/-- Digits that would have gone on behind the place stop at the blank, or at an underscore before it. -/
theorem halts_drop_digitsLength (front : List UInt8)
    (h : front.length < digitsLength p (front ++ back)) :
    Halts ((front ++ 32 :: rest).drop (digitsLength p (front ++ 32 :: rest))) := by
  cases front with
  | nil =>
    rw [List.nil_append, digitsLength, hp]
    exact ⟨rest, Or.inl rfl⟩
  | cons b front =>
    rw [List.cons_append, digitsLength] at h ⊢
    split_ifs at h ⊢ with hb
    · rw [Nat.add_comm 1, List.drop_succ_cons]
      exact halts_drop_digitsRest front (by rw [List.length_cons] at h; omega)
    · simp at h

/-- The same for the digits behind the first one. -/
theorem halts_drop_digitsRest (front : List UInt8)
    (h : front.length < digitsRest p (front ++ back)) :
    Halts ((front ++ 32 :: rest).drop (digitsRest p (front ++ 32 :: rest))) := by
  cases front with
  | nil =>
    rw [List.nil_append, digitsRest, hp]
    exact ⟨rest, Or.inl rfl⟩
  | cons b front =>
    rw [List.cons_append, digitsRest_cons] at h ⊢
    split_ifs at h ⊢ with hb hunderscore
    · rw [Nat.add_comm 1, List.drop_succ_cons]
      exact halts_drop_digitsRest front (by rw [List.length_cons] at h; omega)
    · have hb : b = 95 := UInt8.toNat_inj.mp (beq_iff_eq.mp hunderscore)
      have hlt : front.length < digitsLength p (front ++ back) := lt_of_lifted h
      have hhalts := halts_drop_digitsLength front hlt
      cases front with
      | nil =>
        rw [List.nil_append, digitsLength, hp, hb]
        exact ⟨rest, Or.inr rfl⟩
      | cons d front =>
        -- a digit behind the underscore is there on both sides
        obtain ⟨n, hn⟩ : ∃ n, digitsLength p (d :: front ++ 32 :: rest) = n + 1 := by
          rw [List.cons_append, digitsLength] at hlt ⊢
          split_ifs at hlt ⊢ with hd
          · exact ⟨_, Nat.add_comm 1 _⟩
          · simp at hlt
        rw [hn] at hhalts
        rwa [hn, lifted, List.drop_succ_cons]
    · simp at h

end

/-- The same for digits that may start with an underscore. -/
theorem prefixedDigits_blank (front : List UInt8)
    (h : prefixedDigits p (front ++ back) ≤ front.length) :
    prefixedDigits p (front ++ 32 :: rest) = prefixedDigits p (front ++ back) := by
  cases front with
  | nil =>
    rw [Nat.le_zero.mp h, List.nil_append, prefixedDigits, if_neg (by decide), digitsLength, hp]
    rfl
  | cons b front =>
    rw [List.cons_append, prefixedDigits_cons] at h ⊢
    rw [List.cons_append, prefixedDigits_cons]
    split_ifs at h ⊢ with hunderscore
    · rw [digitsLength_blank hp front (le_of_lifted h)]
    · exact digitsLength_blank hp (b :: front) h

end Digits

theorem isDecimal_blank : isDecimal 32 = false := by decide

theorem isHex_blank : isHex 32 = false := by decide

theorem isBinary_blank : isBinary 32 = false := by decide

theorem isOctal_blank : isOctal 32 = false := by decide

/-! ## Exponents -/

theorem exponentLength_cons_cons (lower upper : Char) (b s : UInt8) (bytes : List UInt8) :
    exponentLength lower upper (b :: s :: bytes) =
      if byteIs b lower || byteIs b upper then
        if byteIs s '+' || byteIs s '-' then lifted 2 (digitsLength isDecimal bytes)
        else lifted 1 (digitsLength isDecimal (s :: bytes))
      else 0 := by
  rw [exponentLength]
  cases digitsLength isDecimal bytes <;> cases digitsLength isDecimal (s :: bytes) <;> rfl

theorem exponentLength_of_not {lower upper : Char} {b : UInt8}
    (hb : byteIs b lower = false ∧ byteIs b upper = false) (bytes : List UInt8) :
    exponentLength lower upper (b :: bytes) = 0 := by
  cases bytes <;> simp [exponentLength, hb]

/-- An exponent that ends in front of the place is read as before. -/
theorem exponentLength_blank {lower upper : Char}
    (hblank : byteIs 32 lower = false ∧ byteIs 32 upper = false) (front : List UInt8)
    (h : exponentLength lower upper (front ++ back) ≤ front.length) :
    exponentLength lower upper (front ++ 32 :: rest) = exponentLength lower upper (front ++ back) := by
  rcases front with _ | ⟨b, _ | ⟨s, front⟩⟩
  · rw [Nat.le_zero.mp h, List.nil_append, exponentLength_of_not hblank]
  · -- a letter alone: its digits stood behind the place, and there are none behind a blank
    have hback : exponentLength lower upper (b :: back) = 0 := by
      cases back with
      | nil => simp [exponentLength]
      | cons s back =>
        rw [List.singleton_append, exponentLength_cons_cons] at h
        rw [exponentLength_cons_cons]
        split_ifs at h ⊢ with hletter hsign
        · exact lifted_eq_zero (Nat.le_succ_of_le h)
        · exact lifted_eq_zero h
        · rfl
    have hrest : exponentLength lower upper (b :: 32 :: rest) = 0 := by
      have hsign : ¬ (byteIs 32 '+' || byteIs 32 '-') = true := by decide
      rw [exponentLength_cons_cons, if_neg hsign, digitsLength, isDecimal_blank]
      exact ite_self 0
    rw [List.singleton_append, List.singleton_append, hback, hrest]
  · simp only [List.cons_append, exponentLength_cons_cons, List.length_cons] at h ⊢
    split_ifs at h ⊢ with hletter hsign
    · rw [digitsLength_blank isDecimal_blank front (le_of_lifted h)]
    · have hdigits : digitsLength isDecimal (s :: (front ++ 32 :: rest)) =
          digitsLength isDecimal (s :: (front ++ back)) :=
        digitsLength_blank isDecimal_blank (s :: front) (le_of_lifted h)
      rw [hdigits]
    · rfl

/-- No exponent starts at a blank, or at an underscore in front of one. -/
theorem exponentLength_of_halts {lower upper : Char}
    (hblank : byteIs 32 lower = false ∧ byteIs 32 upper = false)
    (hunderscore : byteIs 95 lower = false ∧ byteIs 95 upper = false)
    {bytes : List UInt8} (h : Halts bytes) : exponentLength lower upper bytes = 0 := by
  obtain ⟨rest, rfl | rfl⟩ := h
  · exact exponentLength_of_not hblank rest
  · exact exponentLength_of_not hunderscore (32 :: rest)

/-! ## Numbers -/

/-- A length that is found and ends in front of the place has digits in front of it only. -/
theorem le_of_found {skip n m : ℕ} (h : ∀ k ∈ found skip n, k ≤ skip + m) : n ≤ m := by
  by_cases hn : n = 0
  · exact hn ▸ Nat.zero_le m
  · rw [found, if_neg hn] at h
    exact Nat.le_of_add_le_add_left (h _ (List.mem_singleton_self _))

theorem found_eq_nil {skip n : ℕ} (h : ∀ k ∈ found skip n, k ≤ skip) : found skip n = [] := by
  have hzero : n ≤ 0 := le_of_found h
  rw [Nat.le_zero.mp hzero]
  rfl

/-- The lengths of integer literals with a base, from the letter of the base on. -/
def basedLengths : List UInt8 → List ℕ
  | b :: bytes =>
    if byteIs b 'x' || byteIs b 'X' then found 2 (prefixedDigits isHex bytes)
    else if byteIs b 'b' || byteIs b 'B' then found 2 (prefixedDigits isBinary bytes)
    else if byteIs b 'o' || byteIs b 'O' then found 2 (prefixedDigits isOctal bytes)
    else []
  | [] => []

theorem integerLengths_zero (bytes : List UInt8) : integerLengths (48 :: bytes) =
    1 :: found 1 (prefixedDigits isOctal bytes) ++ basedLengths bytes := by
  cases bytes <;> rfl

/-- The same for integers with a base prefix. -/
theorem basedLengths_blank (front : List UInt8)
    (h : ∀ k ∈ basedLengths (front ++ back), k ≤ 1 + front.length) :
    basedLengths (front ++ 32 :: rest) = basedLengths (front ++ back) := by
  cases front with
  | nil =>
    -- the letter of the base would stand behind the place
    have hnone : basedLengths back = [] := by
      cases back with
      | nil => rfl
      | cons b back =>
        rw [List.nil_append, basedLengths] at h
        rw [basedLengths]
        split_ifs at h ⊢
        all_goals first | rfl | exact found_eq_nil fun k hk ↦ Nat.le_succ_of_le (h k hk)
    exact hnone.symm
  | cons b front =>
    rw [List.cons_append, basedLengths] at h ⊢
    rw [List.cons_append, basedLengths]
    rw [List.length_cons, Nat.add_comm, Nat.add_assoc, Nat.add_comm] at h
    split_ifs at h ⊢
    · rw [prefixedDigits_blank isHex_blank front (le_of_found h)]
    · rw [prefixedDigits_blank isBinary_blank front (le_of_found h)]
    · rw [prefixedDigits_blank isOctal_blank front (le_of_found h)]
    · rfl

/-- All readings as an integer that end in front of the place stay, and no new one appears. -/
theorem integerLengths_blank {front : List UInt8} (hfront : front ≠ [])
    (h : ∀ k ∈ integerLengths (front ++ back), k ≤ front.length) :
    integerLengths (front ++ 32 :: rest) = integerLengths (front ++ back) := by
  rcases front with _ | ⟨a, front⟩
  · exact absurd rfl hfront
  by_cases ha : a = 48
  · subst ha
    rw [List.cons_append, integerLengths_zero, List.length_cons, Nat.add_comm] at h
    have hoctal : prefixedDigits isOctal (front ++ back) ≤ front.length :=
      le_of_found fun k hk ↦ h k (List.mem_append_left _ (List.mem_cons_of_mem 1 hk))
    rw [List.cons_append, List.cons_append, integerLengths_zero, integerLengths_zero,
      prefixedDigits_blank isOctal_blank front hoctal,
      basedLengths_blank front fun k hk ↦ h k (List.mem_append_right _ hk)]
  · simp only [List.cons_append, integerLengths.eq_3 _ _ ha, List.length_cons] at h ⊢
    split_ifs at h ⊢ with hdecimal
    · have hle : digitsRest isDecimal (front ++ back) ≤ front.length := by
        have := h _ (List.mem_singleton_self _)
        omega
      rw [digitsRest_blank isDecimal_blank front hle]
    · rfl

/-- The lengths of decimal floating-point literals whose first digits are known, from behind these on. -/
def floatRest (whole : ℕ) : List UInt8 → List ℕ
  | 46 :: bytes =>
    let fraction := digitsLength isDecimal bytes
    if whole + fraction = 0 then []
    else [whole + 1 + fraction + exponentLength 'e' 'E' (bytes.drop fraction)]
  | bytes => if whole = 0 then [] else found whole (exponentLength 'e' 'E' bytes)

theorem decimalFloatLengths_eq (bytes : List UInt8) : decimalFloatLengths bytes =
    floatRest (digitsLength isDecimal bytes) (bytes.drop (digitsLength isDecimal bytes)) := rfl

theorem floatRest_of_ne (whole : ℕ) {b : UInt8} (hb : b ≠ 46) (bytes : List UInt8) :
    floatRest whole (b :: bytes) =
      if whole = 0 then [] else found whole (exponentLength 'e' 'E' (b :: bytes)) :=
  floatRest.eq_2 whole _ fun _ heq ↦ hb (List.cons.inj heq).1

theorem floatRest_dot (whole : ℕ) (bytes : List UInt8) : floatRest whole (46 :: bytes) =
    if whole + digitsLength isDecimal bytes = 0 then []
    else [whole + 1 + digitsLength isDecimal bytes +
      exponentLength 'e' 'E' (bytes.drop (digitsLength isDecimal bytes))] := rfl

theorem lt_of_mem_found {skip n k : ℕ} (h : k ∈ found skip n) : skip < k := by
  rw [found] at h
  split_ifs at h with hn
  · simp at h
  · rw [List.mem_singleton.mp h]
    omega

/-- A float is longer than its whole part. -/
theorem lt_of_mem_floatRest {whole k : ℕ} {bytes : List UInt8} (h : k ∈ floatRest whole bytes) :
    whole < k := by
  rw [floatRest.eq_def] at h
  split at h
  · simp only at h
    split_ifs at h
    · simp at h
    · rw [List.mem_singleton.mp h]
      omega
  · split_ifs at h
    · simp at h
    · exact lt_of_mem_found h

theorem floatRest_of_halts (whole : ℕ) {bytes : List UInt8} (h : Halts bytes) :
    floatRest whole bytes = [] := by
  have hexponent : exponentLength 'e' 'E' bytes = 0 :=
    exponentLength_of_halts (by decide) (by decide) h
  obtain ⟨rest, rfl | rfl⟩ := h <;>
    rw [floatRest_of_ne whole (by decide), hexponent] <;> exact ite_self []

/-- Readings of what follows the whole part, point and exponent, stay. -/
theorem floatRest_blank (whole : ℕ) (front : List UInt8)
    (h : ∀ k ∈ floatRest whole (front ++ back), k ≤ whole + front.length) :
    floatRest whole (front ++ 32 :: rest) = floatRest whole (front ++ back) := by
  rcases front with _ | ⟨c, front⟩
  · rw [List.nil_append, List.nil_append, floatRest_of_halts whole ⟨rest, Or.inl rfl⟩]
    refine (List.eq_nil_iff_forall_not_mem.mpr fun k hk ↦ ?_).symm
    exact Nat.not_le_of_lt (lt_of_mem_floatRest hk) (h k hk)
  by_cases hc : c = 46
  · subst hc
    rw [List.cons_append, floatRest_dot] at h
    rw [List.cons_append, List.cons_append, floatRest_dot, floatRest_dot]
    by_cases hzero : whole + digitsLength isDecimal (front ++ back) = 0
    · have hdigits : digitsLength isDecimal (front ++ back) ≤ front.length := by omega
      rw [digitsLength_blank isDecimal_blank front hdigits, if_pos hzero, if_pos hzero]
    · rw [if_neg hzero] at h
      have hle := h _ (List.mem_singleton_self _)
      rw [List.length_cons] at hle
      have hdigits : digitsLength isDecimal (front ++ back) ≤ front.length := by omega
      rw [List.drop_append_of_le_length hdigits] at hle
      have hexponent : exponentLength 'e' 'E'
            (front.drop (digitsLength isDecimal (front ++ back)) ++ back) ≤
          (front.drop (digitsLength isDecimal (front ++ back))).length := by
        rw [List.length_drop]
        omega
      rw [digitsLength_blank isDecimal_blank front hdigits, if_neg hzero, if_neg hzero,
        List.drop_append_of_le_length hdigits, List.drop_append_of_le_length hdigits,
        exponentLength_blank (by decide) _ hexponent]
  · rw [List.cons_append, floatRest_of_ne whole hc] at h
    rw [List.cons_append, List.cons_append, floatRest_of_ne whole hc, floatRest_of_ne whole hc]
    split_ifs at h ⊢ with hzero
    · rfl
    · have hexponent : exponentLength 'e' 'E' (c :: (front ++ 32 :: rest)) =
          exponentLength 'e' 'E' (c :: (front ++ back)) :=
        exponentLength_blank (by decide) (c :: front) (le_of_found h)
      rw [hexponent]

/-- All readings as a decimal float that end in front of the place stay. -/
theorem decimalFloatLengths_blank (front : List UInt8)
    (h : ∀ k ∈ decimalFloatLengths (front ++ back), k ≤ front.length) :
    decimalFloatLengths (front ++ 32 :: rest) = decimalFloatLengths (front ++ back) := by
  rw [decimalFloatLengths_eq] at h
  rw [decimalFloatLengths_eq, decimalFloatLengths_eq]
  rcases Nat.lt_or_ge front.length (digitsLength isDecimal (front ++ back)) with hlt | hle
  · rw [floatRest_of_halts _ (halts_drop_digitsLength isDecimal_blank front hlt)]
    refine (List.eq_nil_iff_forall_not_mem.mpr fun k hk ↦ ?_).symm
    exact Nat.not_le_of_lt (hlt.trans (lt_of_mem_floatRest hk)) (h k hk)
  · rw [List.drop_append_of_le_length hle] at h
    rw [digitsLength_blank isDecimal_blank front hle, List.drop_append_of_le_length hle,
      List.drop_append_of_le_length hle]
    refine floatRest_blank _ _ fun k hk ↦ ?_
    have := h k hk
    rw [List.length_drop]
    omega

/-! ### Hexadecimal floating-point literals -/

/-- The mantissa with a fraction, if there is one behind the digits before the dot. -/
def dottedMantissas (whole : ℕ) : List UInt8 → List ℕ
  | 46 :: bytes =>
    if whole + digitsLength isHex bytes = 0 then [] else [whole + 1 + digitsLength isHex bytes]
  | _ => []

/-- The length of a hexadecimal literal by the length of its mantissa. -/
def hexLengths (bytes : List UInt8) (m : ℕ) : List ℕ :=
  found (2 + m) (exponentLength 'p' 'P' (bytes.drop m))

/-- The lengths of hexadecimal literals whose digits in front of the dot are known. -/
def hexFloatRest (whole : ℕ) (bytes : List UInt8) : List ℕ :=
  (found 0 whole ++ dottedMantissas whole (bytes.drop whole)).flatMap (hexLengths bytes)

theorem hexFloatLengths_eq (b : UInt8) (bytes : List UInt8) : hexFloatLengths (48 :: b :: bytes) =
    if byteIs b 'x' || byteIs b 'X' then hexFloatRest (prefixedDigits isHex bytes) bytes else [] := by
  rw [hexFloatLengths, hexFloatRest]
  congr 1
  simp only
  congr 1
  split
  · rename_i more hdrop
    rw [hdrop, dottedMantissas]
    split_ifs
    · rw [List.append_nil]
    · rfl
  · rename_i hdrop
    rw [dottedMantissas.eq_2 _ _ hdrop, List.append_nil]

/-- A mantissa in front of the place goes on with the same exponents. -/
theorem hexLengths_blank {m : ℕ} (hm : m ≤ front.length)
    (h : ∀ k ∈ hexLengths (front ++ back) m, k ≤ 2 + front.length) :
    hexLengths (front ++ 32 :: rest) m = hexLengths (front ++ back) m := by
  rw [hexLengths, List.drop_append_of_le_length hm] at h
  rw [hexLengths, hexLengths, List.drop_append_of_le_length hm, List.drop_append_of_le_length hm]
  have hexponent : exponentLength 'p' 'P' (front.drop m ++ back) ≤ (front.drop m).length := by
    refine le_of_found fun k hk ↦ (h k hk).trans ?_
    rw [List.length_drop]
    omega
  rw [exponentLength_blank (by decide) _ hexponent]

/-- A mantissa that went past the place had no reading that ends in front of it. -/
theorem hexLengths_eq_nil {m : ℕ} (hm : front.length < m)
    (h : ∀ k ∈ hexLengths (front ++ back) m, k ≤ 2 + front.length) :
    hexLengths (front ++ back) m = [] := by
  refine List.eq_nil_iff_forall_not_mem.mpr fun k hk ↦ ?_
  have hlt := lt_of_mem_found hk
  have hle := h k hk
  omega

theorem le_of_mem_found_zero {n k : ℕ} (h : k ∈ found 0 n) : k = n := by
  rw [found] at h
  split_ifs at h
  · simp at h
  · rw [List.mem_singleton.mp h, Nat.zero_add]

theorem lt_of_mem_dottedMantissas {whole m : ℕ} {bytes : List UInt8}
    (h : m ∈ dottedMantissas whole bytes) : whole < m := by
  rw [dottedMantissas.eq_def] at h
  split at h
  · split_ifs at h
    · simp at h
    · rw [List.mem_singleton.mp h]
      omega
  · simp at h

theorem dottedMantissas_of_ne (whole : ℕ) {b : UInt8} (hb : b ≠ 46) (bytes : List UInt8) :
    dottedMantissas whole (b :: bytes) = [] :=
  dottedMantissas.eq_2 whole _ fun _ heq ↦ hb (List.cons.inj heq).1

theorem hexLengths_of_halts {m : ℕ} {bytes : List UInt8} (h : Halts (bytes.drop m)) :
    hexLengths bytes m = [] := by
  rw [hexLengths, exponentLength_of_halts (by decide) (by decide) h]
  rfl

theorem flatMap_dottedMantissas_blank {whole : ℕ} (hwhole : whole ≤ front.length)
    (h : ∀ k ∈ (dottedMantissas whole ((front ++ back).drop whole)).flatMap (hexLengths (front ++ back)),
      k ≤ 2 + front.length) :
    (dottedMantissas whole ((front ++ 32 :: rest).drop whole)).flatMap
        (hexLengths (front ++ 32 :: rest)) =
      (dottedMantissas whole ((front ++ back).drop whole)).flatMap (hexLengths (front ++ back)) := by
  have hsplit (other : List UInt8) : (front ++ other).drop whole = front.drop whole ++ other :=
    List.drop_append_of_le_length hwhole
  have hlength : (front.drop whole).length = front.length - whole := List.length_drop
  rw [hsplit] at h
  rw [hsplit, hsplit]
  rcases hdrop : front.drop whole with _ | ⟨c, more⟩
  · -- the dot would stand behind the place
    rw [hdrop, List.length_nil] at hlength
    rw [hdrop] at h
    rw [List.nil_append, dottedMantissas_of_ne whole (by decide), List.flatMap_nil]
    refine (List.flatMap_eq_nil_iff.mpr fun m hm ↦ ?_).symm
    have hlt : front.length < m := by
      have := lt_of_mem_dottedMantissas hm
      omega
    exact hexLengths_eq_nil hlt fun k hk ↦ h k (List.mem_flatMap.mpr ⟨m, hm, hk⟩)
  rw [hdrop, List.length_cons] at hlength
  rw [hdrop] at h
  by_cases hc : c = 46
  · subst hc
    rw [List.cons_append, dottedMantissas] at h
    rw [List.cons_append, List.cons_append, dottedMantissas, dottedMantissas]
    rcases Nat.lt_or_ge more.length (digitsLength isHex (more ++ back)) with hlt | hle
    · -- the fraction goes past the place, and no exponent follows it
      have hzero : whole + digitsLength isHex (more ++ back) ≠ 0 := by omega
      rw [if_neg hzero, List.flatMap_singleton] at h
      rw [if_neg hzero, List.flatMap_singleton, hexLengths_eq_nil (by omega) h]
      split_ifs
      · rfl
      · rw [List.flatMap_singleton]
        refine hexLengths_of_halts ?_
        rw [Nat.add_assoc, ← List.drop_drop, hsplit, hdrop, Nat.add_comm 1, List.cons_append,
          List.drop_succ_cons]
        exact halts_drop_digitsLength isHex_blank more hlt
    · rw [digitsLength_blank isHex_blank more hle]
      split_ifs at h ⊢
      · rfl
      · rw [List.flatMap_singleton] at h
        rw [List.flatMap_singleton, List.flatMap_singleton, hexLengths_blank (by omega) h]
  · rw [List.cons_append, List.cons_append, dottedMantissas_of_ne whole hc,
      dottedMantissas_of_ne whole hc, List.flatMap_nil, List.flatMap_nil]

/-- Readings behind the whole part of a hexadecimal mantissa stay. -/
theorem hexFloatRest_blank {whole : ℕ} (hwhole : whole ≤ front.length)
    (h : ∀ k ∈ hexFloatRest whole (front ++ back), k ≤ 2 + front.length) :
    hexFloatRest whole (front ++ 32 :: rest) = hexFloatRest whole (front ++ back) := by
  rw [hexFloatRest, List.flatMap_append, List.forall_mem_append] at h
  rw [hexFloatRest, hexFloatRest, List.flatMap_append, List.flatMap_append,
    flatMap_dottedMantissas_blank hwhole h.2]
  congr 1
  refine List.flatMap_congr fun m hm ↦ ?_
  refine hexLengths_blank (le_of_mem_found_zero hm ▸ hwhole) fun k hk ↦ ?_
  exact h.1 k (List.mem_flatMap.mpr ⟨m, hm, hk⟩)

theorem lt_of_mem_hexFloatRest {whole k : ℕ} {bytes : List UInt8} (h : k ∈ hexFloatRest whole bytes) :
    2 < k := by
  obtain ⟨m, -, hk⟩ := List.mem_flatMap.mp h
  have := lt_of_mem_found hk
  omega

theorem hexFloatLengths_of_ne {b : UInt8} (hb : b ≠ 48) (bytes : List UInt8) :
    hexFloatLengths (b :: bytes) = [] :=
  hexFloatLengths.eq_2 _ fun _ _ heq ↦ hb (List.cons.inj heq).1

/-- All readings as a hexadecimal float that end in front of the place stay. -/
theorem hexFloatLengths_blank {front : List UInt8} (hfront : front ≠ [])
    (hints : ∀ k ∈ integerLengths (front ++ back), k ≤ front.length)
    (h : ∀ k ∈ hexFloatLengths (front ++ back), k ≤ front.length) :
    hexFloatLengths (front ++ 32 :: rest) = hexFloatLengths (front ++ back) := by
  rcases front with _ | ⟨a, front⟩
  · exact absurd rfl hfront
  by_cases ha : a = 48
  · subst ha
    rcases front with _ | ⟨b, front⟩
    · -- the letter would stand behind the place
      have hback : hexFloatLengths (48 :: back) = [] := by
        cases back with
        | nil => rfl
        | cons b back =>
          rw [List.singleton_append, hexFloatLengths_eq] at h
          rw [hexFloatLengths_eq]
          split_ifs at h ⊢
          · refine List.eq_nil_iff_forall_not_mem.mpr fun k hk ↦ ?_
            exact absurd (h k hk) (Nat.not_le_of_lt (Nat.lt_of_succ_lt (lt_of_mem_hexFloatRest hk)))
          · rfl
      rw [List.singleton_append, List.singleton_append, hback, hexFloatLengths_eq]
      rfl
    · rw [List.cons_append, List.cons_append, hexFloatLengths_eq, List.length_cons, List.length_cons,
        Nat.add_assoc, Nat.add_comm] at h
      rw [List.cons_append, List.cons_append, List.cons_append, List.cons_append, hexFloatLengths_eq,
        hexFloatLengths_eq]
      split_ifs at h ⊢ with hletter
      · have hwhole : prefixedDigits isHex (front ++ back) ≤ front.length := by
          have hfound : ∀ k ∈ found 2 (prefixedDigits isHex (front ++ back)), k ≤ 2 + front.length := by
            intro k hk
            have hint : k ∈ integerLengths (48 :: b :: front ++ back) := by
              rw [List.cons_append, List.cons_append, integerLengths_zero, basedLengths, if_pos hletter]
              exact List.mem_append_right _ hk
            exact (hints k hint).trans_eq (Nat.add_comm _ 2)
          exact le_of_found hfound
        rw [prefixedDigits_blank isHex_blank front hwhole, hexFloatRest_blank hwhole h]
      · rfl
  · rw [List.cons_append, List.cons_append, hexFloatLengths_of_ne ha, hexFloatLengths_of_ne ha]

/-! ### The longest number -/

/-- The length with the letter of an imaginary literal, if it stands behind the length given. -/
def imaginary? (bytes : List UInt8) (n : ℕ) : Option ℕ :=
  match bytes.drop n with
  | b :: _ => if byteIs b 'i' then some (n + 1) else none
  | [] => none

def imaginaryLengths (bytes : List UInt8) (lengths : List ℕ) : List ℕ :=
  lengths.filterMap (imaginary? bytes)

theorem imaginaryLengths_append (bytes : List UInt8) (a b : List ℕ) :
    imaginaryLengths bytes (a ++ b) = imaginaryLengths bytes a ++ imaginaryLengths bytes b :=
  List.filterMap_append

/-- The literal of the longest length, and of the first kind that has it. -/
def longestNumber (ints floats imags : List ℕ) : Option (TokenKind × ℕ) :=
  let best := [longest .float floats, longest .imag imags].foldl
    (fun a b ↦ if a.2 < b.2 then b else a) (longest .int ints)
  if best.2 = 0 then none else some best

/-- A number is the longest of its readings, imaginary ones among them. -/
theorem number?_eq (bytes : List UInt8) : number? bytes =
    longestNumber (integerLengths bytes) (decimalFloatLengths bytes ++ hexFloatLengths bytes)
      (imaginaryLengths bytes (found 0 (digitsLength isDecimal bytes) ++ integerLengths bytes ++
        (decimalFloatLengths bytes ++ hexFloatLengths bytes))) := rfl

theorem le_foldl_max {lengths : List ℕ} {init k : ℕ} (h : k = init ∨ k ∈ lengths) :
    k ≤ lengths.foldl max init := by
  induction lengths generalizing init k with
  | nil => simpa using Nat.le_of_eq (h.resolve_right List.not_mem_nil)
  | cons n lengths ih =>
    rw [List.foldl_cons]
    have hmax : max init n ≤ lengths.foldl max (max init n) := ih (Or.inl rfl)
    rcases h with rfl | h
    · exact (Nat.le_max_left _ _).trans hmax
    · rcases List.mem_cons.mp h with rfl | h
      · exact (Nat.le_max_right _ _).trans hmax
      · exact ih (Or.inr h)

theorem le_longer (a b : TokenKind × ℕ) :
    a.2 ≤ (if a.2 < b.2 then b else a).2 ∧ b.2 ≤ (if a.2 < b.2 then b else a).2 := by
  split <;> omega

/-- No candidate is longer than the number that is found. -/
theorem le_of_longestNumber {ints floats imags : List ℕ} {m : ℕ}
    (h : ∀ kind n, longestNumber ints floats imags = some (kind, n) → n ≤ m) {k : ℕ}
    (hk : k ∈ ints ∨ k ∈ floats ∨ k ∈ imags) : k ≤ m := by
  unfold longestNumber at h
  extract_lets best at h
  have hbest : k ≤ best.2 := by
    have hfirst := le_longer (longest .int ints) (longest .float floats)
    have hsecond := le_longer (if (longest .int ints).2 < (longest .float floats).2 then
      longest .float floats else longest .int ints) (longest .imag imags)
    rcases hk with hk | hk | hk
    · exact (le_foldl_max (Or.inr hk)).trans (hfirst.1.trans hsecond.1)
    · exact (le_foldl_max (Or.inr hk)).trans (hfirst.2.trans hsecond.1)
    · exact (le_foldl_max (Or.inr hk)).trans hsecond.2
  by_cases hzero : best.2 = 0
  · exact hbest.trans (hzero ▸ Nat.zero_le m)
  · exact hbest.trans (h best.1 best.2 (if_neg hzero))

theorem eq_of_imaginary? {bytes : List UInt8} {n k : ℕ} (h : imaginary? bytes n = some k) :
    k = n + 1 := by
  rw [imaginary?] at h
  split at h
  · split_ifs at h
    exact (Option.some.inj h).symm
  · simp at h

theorem imaginary?_of_halts {bytes : List UInt8} {n : ℕ} (h : Halts (bytes.drop n)) :
    imaginary? bytes n = none := by
  rw [imaginary?]
  obtain ⟨rest, heq | heq⟩ := h <;> rw [heq] <;> rfl

/-- Behind a length that ends in front of the place, the letter is there or not for both. -/
theorem imaginary?_blank {n : ℕ} (hn : n ≤ front.length)
    (h : ∀ k, imaginary? (front ++ back) n = some k → k ≤ front.length) :
    imaginary? (front ++ 32 :: rest) n = imaginary? (front ++ back) n := by
  have hsplit (other : List UInt8) : (front ++ other).drop n = front.drop n ++ other :=
    List.drop_append_of_le_length hn
  have hlength : (front.drop n).length = front.length - n := List.length_drop
  cases hdrop : front.drop n with
  | nil =>
    rw [hdrop, List.length_nil] at hlength
    rw [imaginary?_of_halts ⟨rest, Or.inl (by rw [hsplit, hdrop, List.nil_append])⟩]
    refine (Option.eq_none_iff_forall_ne_some.mpr fun k hk ↦ ?_).symm
    have hle := h k hk
    rw [eq_of_imaginary? hk] at hle
    omega
  | cons b more => rw [imaginary?, imaginary?, hsplit, hsplit, hdrop]; rfl

/-- A reading that ends in front of the place goes on to an imaginary one as before. -/
theorem imaginaryLengths_blank {lengths : List ℕ} (hlengths : ∀ n ∈ lengths, n ≤ front.length)
    (h : ∀ k ∈ imaginaryLengths (front ++ back) lengths, k ≤ front.length) :
    imaginaryLengths (front ++ 32 :: rest) lengths = imaginaryLengths (front ++ back) lengths := by
  refine List.filterMap_congr fun n hn ↦ imaginary?_blank (hlengths n hn) fun k hk ↦ ?_
  exact h k (List.mem_filterMap.mpr ⟨n, hn, hk⟩)

/-- Digits that would have gone on behind the place make no imaginary literal on either side. -/
theorem imaginaryLengths_digits_blank
    (h : ∀ k ∈ imaginaryLengths (front ++ back) (found 0 (digitsLength isDecimal (front ++ back))),
      k ≤ front.length) :
    imaginaryLengths (front ++ 32 :: rest) (found 0 (digitsLength isDecimal (front ++ 32 :: rest))) =
      imaginaryLengths (front ++ back) (found 0 (digitsLength isDecimal (front ++ back))) := by
  rcases Nat.lt_or_ge front.length (digitsLength isDecimal (front ++ back)) with hlt | hle
  · have hleft : imaginaryLengths (front ++ 32 :: rest)
        (found 0 (digitsLength isDecimal (front ++ 32 :: rest))) = [] := by
      refine List.filterMap_eq_nil_iff.mpr fun n hn ↦ ?_
      rw [le_of_mem_found_zero hn]
      exact imaginary?_of_halts (halts_drop_digitsLength isDecimal_blank front hlt)
    rw [hleft]
    refine (List.eq_nil_iff_forall_not_mem.mpr fun k hk ↦ ?_).symm
    obtain ⟨n, hn, hk'⟩ := List.mem_filterMap.mp hk
    have hle := h k hk
    rw [eq_of_imaginary? hk', le_of_mem_found_zero hn] at hle
    omega
  · rw [digitsLength_blank isDecimal_blank front hle]
    exact imaginaryLengths_blank (fun n hn ↦ le_of_mem_found_zero hn ▸ hle) h

/-- A number that ends in front of the place stays, and so does there being none. -/
theorem number?_blank {front : List UInt8} (hfront : front ≠ [])
    (h : ∀ kind n, number? (front ++ back) = some (kind, n) → n ≤ front.length) :
    number? (front ++ 32 :: rest) = number? (front ++ back) := by
  rw [number?_eq] at h
  have hints : ∀ k ∈ integerLengths (front ++ back), k ≤ front.length :=
    fun k hk ↦ le_of_longestNumber h (Or.inl hk)
  have hfloats : ∀ k ∈ decimalFloatLengths (front ++ back) ++ hexFloatLengths (front ++ back),
      k ≤ front.length :=
    fun k hk ↦ le_of_longestNumber h (Or.inr (Or.inl hk))
  have himags : ∀ k ∈ imaginaryLengths (front ++ back)
      (found 0 (digitsLength isDecimal (front ++ back)) ++ (integerLengths (front ++ back) ++
        (decimalFloatLengths (front ++ back) ++ hexFloatLengths (front ++ back)))),
      k ≤ front.length := by
    rw [← List.append_assoc]
    exact fun k hk ↦ le_of_longestNumber h (Or.inr (Or.inr hk))
  rw [imaginaryLengths_append, List.forall_mem_append] at himags
  have hother := List.forall_mem_append.mpr ⟨hints, hfloats⟩
  rw [List.forall_mem_append] at hfloats
  rw [number?_eq, number?_eq, integerLengths_blank hfront hints,
    decimalFloatLengths_blank front hfloats.1, hexFloatLengths_blank hfront hints hfloats.2,
    List.append_assoc (found _ _), imaginaryLengths_append _ (found _ _),
    imaginaryLengths_blank hother himags.2, imaginaryLengths_digits_blank himags.1,
    ← imaginaryLengths_append, List.append_assoc]

end GoComplexity.Source
