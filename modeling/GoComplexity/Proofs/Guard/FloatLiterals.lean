import GoComplexity.Metric.Guard
import GoComplexity.Proofs.Text.Decimal

/-!
# Floating-point literals

A literal spells digits in front of a point and behind it, and an exponent, with underscores between the
digits. Its value is an exact rational number, which is zero exactly if all its digits are. The test for
zero is exact for hexadecimal literals. A decimal literal passes it if zero is the nearest 64-bit binary
number, so positive values up to `2 ^ (-1075)` pass it too.
-/

namespace GoComplexity.FloatLiteral

open Text

/-! ## Numerals and their values -/

inductive Radix where
  | decimal
  | hexadecimal

def Radix.base : Radix → ℕ
  | .decimal => 10
  | .hexadecimal => 16

/-- The number whose powers the exponent counts. -/
def Radix.scale : Radix → ℕ
  | .decimal => 10
  | .hexadecimal => 2

def isHexDigit (c : Char) : Bool := isDigit c || 'a' ≤ c && c ≤ 'f' || 'A' ≤ c && c ≤ 'F'

/-- The number that a decimal or hexadecimal digit stands for. -/
def figure (c : Char) : ℕ :=
  if isDigit c then digitValue c
  else if 'a' ≤ c then 10 + (c.toNat - 'a'.toNat) else 10 + (c.toNat - 'A'.toNat)

def number (base : ℕ) (digits : List Char) : ℕ := digits.foldl (fun n c ↦ base * n + figure c) 0

/-- What a literal says: the digits in front of the point and behind it, and the exponent. -/
structure Numeral where
  radix : Radix
  whole : List Char
  fraction : List Char
  exponent : ℤ

def Numeral.digits (n : Numeral) : List Char := n.whole ++ n.fraction

/-- The exact value of a literal. -/
def Numeral.value (n : Numeral) : ℚ :=
  number n.radix.base n.digits * (n.radix.base : ℚ) ^ (-(n.fraction.length : ℤ)) *
    (n.radix.scale : ℚ) ^ n.exponent

/-! ## Texts of literals -/

/-- The text consists of the digits, with at most one underscore between two of them. -/
inductive Digits (p : Char → Bool) : List Char → List Char → Prop
  | single {c : Char} (hc : p c = true) : Digits p [c] [c]
  | next {c : Char} {text digits : List Char} (hc : p c = true) (h : Digits p text digits) :
      Digits p (c :: text) (c :: digits)
  | spaced {c : Char} {text digits : List Char} (hc : p c = true) (h : Digits p text digits) :
      Digits p (c :: '_' :: text) (c :: digits)

/-- Digits with at most one point, which may stand at either end. -/
inductive Mantissa (p : Char → Bool) : List Char → List Char → List Char → Prop
  | whole {text whole : List Char} (h : Digits p text whole) : Mantissa p text whole []
  | front {text whole : List Char} (h : Digits p text whole) : Mantissa p (text ++ ['.']) whole []
  | both {text more whole fraction : List Char} (h : Digits p text whole) (h' : Digits p more fraction) :
      Mantissa p (text ++ '.' :: more) whole fraction
  | back {text fraction : List Char} (h : Digits p text fraction) : Mantissa p ('.' :: text) [] fraction

/-- A letter, perhaps a sign, and decimal digits. -/
inductive Exponent (lower upper : Char) : List Char → ℤ → Prop
  | unsigned {c : Char} {text digits : List Char} (hc : c = lower ∨ c = upper)
      (h : Digits isDigit text digits) : Exponent lower upper (c :: text) (number 10 digits)
  | plus {c : Char} {text digits : List Char} (hc : c = lower ∨ c = upper)
      (h : Digits isDigit text digits) : Exponent lower upper (c :: '+' :: text) (number 10 digits)
  | minus {c : Char} {text digits : List Char} (hc : c = lower ∨ c = upper)
      (h : Digits isDigit text digits) : Exponent lower upper (c :: '-' :: text) (-(number 10 digits))

/-- The text is a literal for the numeral. A decimal literal has a point or an exponent; a hexadecimal one
has an exponent, and may have an underscore between its prefix and a digit. -/
inductive Spells : List Char → Numeral → Prop
  | decimal {text whole fraction : List Char} (h : Mantissa isDigit text whole fraction)
      (hpoint : '.' ∈ text) : Spells text ⟨.decimal, whole, fraction, 0⟩
  | decimalExponent {text more whole fraction : List Char} {exponent : ℤ}
      (h : Mantissa isDigit text whole fraction) (hexp : Exponent 'e' 'E' more exponent) :
      Spells (text ++ more) ⟨.decimal, whole, fraction, exponent⟩
  | hexadecimal {x : Char} {text more whole fraction : List Char} {exponent : ℤ} (hx : x = 'x' ∨ x = 'X')
      (h : Mantissa isHexDigit text whole fraction) (hexp : Exponent 'p' 'P' more exponent) :
      Spells ('0' :: x :: (text ++ more)) ⟨.hexadecimal, whole, fraction, exponent⟩
  | hexadecimalSpaced {x : Char} {text more whole fraction : List Char} {exponent : ℤ}
      (hx : x = 'x' ∨ x = 'X') (h : Mantissa isHexDigit text whole fraction) (hwhole : whole ≠ [])
      (hexp : Exponent 'p' 'P' more exponent) :
      Spells ('0' :: x :: '_' :: (text ++ more)) ⟨.hexadecimal, whole, fraction, exponent⟩

/-! ## Digits -/

variable {p : Char → Bool} {text more whole fraction digits : List Char} {exponent : ℤ}

theorem isHexDigit_of_isDigit {c : Char} (h : isDigit c = true) : isHexDigit c = true := by
  simp [isHexDigit, h]

theorem figure_eq_zero_iff {c : Char} (h : isHexDigit c = true) : figure c = 0 ↔ c = '0' := by
  constructor
  · intro hzero
    unfold figure at hzero
    split_ifs at hzero with hc hlower
    · simp only [isDigit, Bool.and_eq_true, decide_eq_true_eq] at hc
      have hlow : 48 ≤ c.toNat := hc.1
      have hnat : c.toNat = 48 := by
        unfold digitValue at hzero
        omega
      exact Char.toNat_inj.mp hnat
    all_goals omega
  · rintro rfl
    rfl

/-- Digits stand for zero in any base exactly if each of them does. -/
theorem number_eq_zero_iff {base : ℕ} (hbase : 0 < base) :
    number base digits = 0 ↔ ∀ c ∈ digits, figure c = 0 := by
  induction digits using List.reverseRecOn with
  | nil => simp [number]
  | append_singleton digits c ih =>
    have hstep : number base (digits ++ [c]) = base * number base digits + figure c := by
      simp only [number, List.foldl_append, List.foldl_cons, List.foldl_nil]
    rw [hstep, Nat.add_eq_zero_iff, Nat.mul_eq_zero, ih, List.forall_mem_append, List.forall_mem_singleton]
    exact and_congr_left' (or_iff_right hbase.ne')

theorem number_ten_eq_digitsValue (h : ∀ c ∈ digits, isDigit c = true) :
    number 10 digits = digitsValue digits := by
  apply List.foldl_ext
  intro n c hc
  rw [figure, if_pos (h c hc)]

theorem Numeral.value_nonneg (n : Numeral) : 0 ≤ n.value := by
  unfold Numeral.value
  positivity

/-- The exponent does not decide whether a numeral is zero. -/
theorem Numeral.value_eq_zero_iff {n : Numeral} (h : ∀ c ∈ n.digits, isHexDigit c = true) :
    n.value = 0 ↔ ∀ c ∈ n.digits, c = '0' := by
  have hbase : 0 < n.radix.base := by cases n.radix <;> decide
  have hscale : 0 < n.radix.scale := by cases n.radix <;> decide
  have hplaces : (n.radix.base : ℚ) ^ (-(n.fraction.length : ℤ)) ≠ 0 := by positivity
  have hpower : (n.radix.scale : ℚ) ^ n.exponent ≠ 0 := by positivity
  rw [Numeral.value, mul_eq_zero_iff_right hpower, mul_eq_zero_iff_right hplaces, Nat.cast_eq_zero,
    number_eq_zero_iff hbase]
  exact forall₂_congr fun c hc ↦ figure_eq_zero_iff (h c hc)

/-! ## Texts without underscores -/

/-- The text without its underscores. -/
def plain (text : List Char) : List Char := text.filter (· != '_')

theorem plain_append (text more : List Char) : plain (text ++ more) = plain text ++ plain more :=
  List.filter_append text more

theorem plain_cons {c : Char} (hc : c ≠ '_') (text : List Char) : plain (c :: text) = c :: plain text :=
  List.filter_cons_of_pos (bne_iff_ne.mpr hc)

theorem plain_underscore (text : List Char) : plain ('_' :: text) = plain text := rfl

theorem Digits.ne_nil (h : Digits p text digits) : digits ≠ [] := by
  cases h <;> exact List.cons_ne_nil _ _

theorem Digits.forall_mem (h : Digits p text digits) : ∀ c ∈ digits, p c = true := by
  induction h with
  | single hc => exact List.forall_mem_singleton.mpr hc
  | next hc _ ih => exact List.forall_mem_cons.mpr ⟨hc, ih⟩
  | spaced hc _ ih => exact List.forall_mem_cons.mpr ⟨hc, ih⟩

theorem Digits.plain_eq (h : Digits p text digits) (hp : p '_' = false) : plain text = digits := by
  have hne {c : Char} (hc : p c = true) : c ≠ '_' := by
    rintro rfl
    exact absurd hc (by simp [hp])
  induction h with
  | single hc => rw [plain_cons (hne hc)]; rfl
  | next hc _ ih => rw [plain_cons (hne hc), ih]
  | spaced hc _ ih => rw [plain_cons (hne hc), plain_underscore, ih]

theorem Mantissa.ne_nil (h : Mantissa p text whole fraction) : whole ++ fraction ≠ [] := by
  cases h with
  | whole h => exact List.append_ne_nil_of_left_ne_nil h.ne_nil _
  | front h => exact List.append_ne_nil_of_left_ne_nil h.ne_nil _
  | both h _ => exact List.append_ne_nil_of_left_ne_nil h.ne_nil _
  | back h => exact h.ne_nil

theorem Mantissa.forall_mem (h : Mantissa p text whole fraction) : ∀ c ∈ whole ++ fraction, p c = true := by
  cases h with
  | whole h => exact List.forall_mem_append.mpr ⟨h.forall_mem, List.forall_mem_nil _⟩
  | front h => exact List.forall_mem_append.mpr ⟨h.forall_mem, List.forall_mem_nil _⟩
  | both h h' => exact List.forall_mem_append.mpr ⟨h.forall_mem, h'.forall_mem⟩
  | back h => exact h.forall_mem

/-- Without underscores a mantissa is its digits, with the point between them if there is one. -/
theorem Mantissa.plain_eq (h : Mantissa p text whole fraction) (hp : p '_' = false) :
    plain text = whole ∧ fraction = [] ∨ plain text = whole ++ '.' :: fraction := by
  cases h with
  | whole h => exact Or.inl ⟨h.plain_eq hp, rfl⟩
  | front h =>
    right
    rw [plain_append, h.plain_eq hp]
    rfl
  | both h h' =>
    right
    rw [plain_append, plain_cons (by decide), h.plain_eq hp, h'.plain_eq hp]
  | back h =>
    right
    rw [plain_cons (by decide), h.plain_eq hp]
    rfl

/-- Apart from the point there are only digits. -/
theorem Mantissa.mem_plain_iff (h : Mantissa p text whole fraction) (hp : p '_' = false) {c : Char}
    (hc : c ≠ '.') : c ∈ plain text ↔ c ∈ whole ++ fraction := by
  rcases h.plain_eq hp with ⟨hplain, rfl⟩ | hplain
  · rw [hplain, List.append_nil]
  · rw [hplain, List.mem_append, List.mem_append, List.mem_cons, or_iff_right hc]

theorem letter_ne_underscore {c lower upper : Char} (hc : c = lower ∨ c = upper) (hlower : lower ≠ '_')
    (hupper : upper ≠ '_') : c ≠ '_' := by
  rcases hc with rfl | rfl
  · exact hlower
  · exact hupper

/-- An exponent still starts with its letter when underscores are dropped. -/
theorem Exponent.exists_plain_eq {lower upper : Char} (h : Exponent lower upper text exponent)
    (hlower : lower ≠ '_') (hupper : upper ≠ '_') :
    ∃ c rest, plain text = c :: rest ∧ (c = lower ∨ c = upper) := by
  cases h with
  | unsigned hc _ => exact ⟨_, _, plain_cons (letter_ne_underscore hc hlower hupper) _, hc⟩
  | plus hc _ => exact ⟨_, _, plain_cons (letter_ne_underscore hc hlower hupper) _, hc⟩
  | minus hc _ => exact ⟨_, _, plain_cons (letter_ne_underscore hc hlower hupper) _, hc⟩

/-! ## Decimal literals -/

/-- Reading decimal digits without their underscores gives their number. -/
theorem Digits.readNat?_plain (h : Digits isDigit text digits) :
    readNat? (plain text) = some (number 10 digits) := by
  rw [h.plain_eq rfl, readNat?, if_pos ⟨h.ne_nil, List.all_eq_true.mpr h.forall_mem⟩,
    number_ten_eq_digitsValue h.forall_mem]

theorem Exponent.readExponent?_plain (h : Exponent 'e' 'E' text exponent) :
    readExponent? (plain text) = some exponent := by
  have hne {c : Char} (hc : c = 'e' ∨ c = 'E') : c ≠ '_' :=
    letter_ne_underscore hc (by decide) (by decide)
  cases h with
  | @unsigned _ _ digits hc h =>
    -- The digits have no sign in front, so they are read as they are.
    have hsign {sign : Char} (hsign : isDigit sign = false) (rest : List Char) :
        digits ≠ sign :: rest := by
      rintro rfl
      exact absurd (h.forall_mem sign List.mem_cons_self) (by simp [hsign])
    have hread := h.readNat?_plain
    rw [h.plain_eq rfl] at hread
    rw [plain_cons (hne hc), h.plain_eq rfl, readExponent?.eq_4 _ _ (hsign rfl) (hsign rfl), if_pos hc, hread]
    rfl
  | plus hc h =>
    rw [plain_cons (hne hc), plain_cons (by decide), readExponent?, if_pos hc, h.readNat?_plain]
    rfl
  | minus hc h =>
    rw [plain_cons (hne hc), plain_cons (by decide), readExponent?, if_pos hc, h.readNat?_plain]
    rfl

/-- Reading a decimal numeral gives all its digits as one number, and an exponent less by the digits
behind the point. -/
theorem Mantissa.readDecimal?_plain {rest : List Char} (h : Mantissa isDigit text whole fraction)
    (hrest : readExponent? rest = some exponent) :
    readDecimal? (plain text ++ rest) =
      some (number 10 (whole ++ fraction), exponent - fraction.length) := by
  have hne := h.ne_nil
  rw [number_ten_eq_digitsValue h.forall_mem]
  obtain ⟨hwhole, hfraction⟩ := List.forall_mem_append.mp h.forall_mem
  rcases h.plain_eq rfl with ⟨hplain, rfl⟩ | hplain
  · rw [List.append_nil] at hne ⊢
    rw [hplain, readDecimal?_whole hwhole hne hrest, List.length_nil, Nat.cast_zero, sub_zero]
  · rw [hplain, List.append_assoc, List.cons_append]
    exact readDecimal?_point hwhole hfraction hne hrest

/-- A text that reads as a decimal number has no hexadecimal prefix. -/
theorem isZeroFloat_of_readDecimal? {text : String} {value : ℕ × ℤ}
    (h : Text.readDecimal? (plain text.toList) = some value) :
    isZeroFloat text = isZeroDecimal (plain text.toList) := by
  have hletter {x : Char} {rest : List Char} (hx : x = 'x' ∨ x = 'X') :
      plain text.toList ≠ '0' :: x :: rest := by
    intro heq
    rw [heq] at h
    rcases hx with rfl | rfl <;> simp [Text.readDecimal?, isDigit, Text.readExponent?] at h
  simp only [isZeroFloat]
  split
  next heq => exact absurd heq (hletter (Or.inl rfl))
  next heq => exact absurd heq (hletter (Or.inr rfl))
  next => rfl

/-- A decimal literal counts as zero exactly if rounding gives zero, whatever digits it has. -/
theorem Mantissa.isZeroFloat_decimal {text : String} {rest : List Char}
    (h : Mantissa isDigit more whole fraction) (htext : plain text.toList = plain more ++ rest)
    (hrest : Text.readExponent? rest = some exponent) :
    isZeroFloat text = true ↔ ZeroIsNearest (Numeral.value ⟨.decimal, whole, fraction, exponent⟩) := by
  have hread : Text.readDecimal? (plain text.toList) = _ := htext ▸ h.readDecimal?_plain hrest
  have hvalue : Numeral.value ⟨.decimal, whole, fraction, exponent⟩ =
      (number 10 (whole ++ fraction) : ℚ) * 10 ^ (exponent - fraction.length) := by
    rw [sub_eq_neg_add, zpow_add₀ (by norm_num), ← mul_assoc]
    rfl
  rw [isZeroFloat_of_readDecimal? hread, isZeroDecimal_iff hread, hvalue]

/-! ## Hexadecimal literals -/

/-- In front of the exponent of a hexadecimal literal nothing but zeros and a point may stand. -/
theorem isZeroMantissa_iff {mantissa rest : List Char} {c : Char}
    (h : ∀ d ∈ mantissa, d ≠ 'p' ∧ d ≠ 'P') (hc : c = 'p' ∨ c = 'P') :
    isZeroFloat.isZeroMantissa (mantissa ++ c :: rest) = true ↔
      '0' ∈ mantissa ∧ ∀ d ∈ mantissa, d = '0' ∨ d = '.' := by
  have hgo : ∀ d ∈ mantissa, (d != 'p' && d != 'P') = true := by simpa using h
  have hstop : (c != 'p' && c != 'P') = false := by rcases hc with rfl | rfl <;> rfl
  unfold isZeroFloat.isZeroMantissa
  rw [List.takeWhile_append_of_pos hgo]
  simp [hstop]

/-- A mantissa passes the scan exactly if all its digits are zero. -/
theorem Mantissa.isZeroMantissa_plain_iff {rest : List Char} {c : Char}
    (h : Mantissa isHexDigit text whole fraction) (hc : c = 'p' ∨ c = 'P') :
    isZeroFloat.isZeroMantissa (plain text ++ c :: rest) = true ↔ ∀ d ∈ whole ++ fraction, d = '0' := by
  have hmem {d : Char} (hd : d ≠ '.') : d ∈ plain text ↔ d ∈ whole ++ fraction := h.mem_plain_iff rfl hd
  have hletter : ∀ d ∈ plain text, d ≠ 'p' ∧ d ≠ 'P' := by
    intro d hd
    constructor <;> rintro rfl
    all_goals exact absurd (h.forall_mem _ ((hmem (by decide)).mp hd)) (by decide)
  rw [isZeroMantissa_iff hletter hc]
  constructor
  · rintro ⟨-, hall⟩ d hd
    have hpoint : d ≠ '.' := by
      rintro rfl
      exact absurd (h.forall_mem '.' hd) (by decide)
    exact (hall d ((hmem hpoint).mpr hd)).resolve_right hpoint
  · intro hall
    obtain ⟨d, hd⟩ := List.exists_mem_of_ne_nil _ h.ne_nil
    obtain rfl := hall d hd
    refine ⟨(hmem (by decide)).mpr hd, fun d hd ↦ ?_⟩
    by_cases hpoint : d = '.'
    · exact Or.inr hpoint
    · exact Or.inl (hall d ((hmem hpoint).mp hd))

theorem Mantissa.isZeroFloat_hexadecimal {text : String} {mantissa : List Char} {x : Char}
    (h : Mantissa isHexDigit mantissa whole fraction) (hx : x = 'x' ∨ x = 'X')
    (htext : plain text.toList = '0' :: x :: (plain mantissa ++ plain more))
    (hexp : Exponent 'p' 'P' more exponent) :
    isZeroFloat text = true ↔ ∀ c ∈ whole ++ fraction, c = '0' := by
  obtain ⟨c, rest, hrest, hc⟩ := hexp.exists_plain_eq (by decide) (by decide)
  have hscan : isZeroFloat text = isZeroFloat.isZeroMantissa (plain mantissa ++ plain more) := by
    have hfilter : text.toList.filter (· != '_') = _ := htext
    rcases hx with rfl | rfl <;> simp only [isZeroFloat, hfilter]
  rw [hscan, hrest, h.isZeroMantissa_plain_iff hc]

/-! ## Literals -/

theorem Spells.forall_mem {n : Numeral} (h : Spells text n) : ∀ c ∈ n.digits, isHexDigit c = true := by
  cases h with
  | decimal h _ => exact fun c hc ↦ isHexDigit_of_isDigit (h.forall_mem c hc)
  | decimalExponent h _ => exact fun c hc ↦ isHexDigit_of_isDigit (h.forall_mem c hc)
  | hexadecimal _ h _ => exact h.forall_mem
  | hexadecimalSpaced _ h _ _ => exact h.forall_mem

/-- Decimal literals are judged by rounding. -/
theorem Spells.isZeroFloat_decimal {text : String} {n : Numeral} (h : Spells text.toList n)
    (hradix : n.radix = .decimal) : isZeroFloat text = true ↔ ZeroIsNearest n.value := by
  generalize htext : text.toList = cs at h
  cases h with
  | decimal h _ =>
    have hnone : readExponent? [] = some 0 := rfl
    apply h.isZeroFloat_decimal _ hnone
    rw [htext, List.append_nil]
  | decimalExponent h hexp =>
    apply h.isZeroFloat_decimal _ hexp.readExponent?_plain
    rw [htext, plain_append]
  | hexadecimal => cases hradix
  | hexadecimalSpaced => cases hradix

/-- Hexadecimal literals are judged by their digits, without rounding. -/
theorem Spells.isZeroFloat_hexadecimal {text : String} {n : Numeral} (h : Spells text.toList n)
    (hradix : n.radix = .hexadecimal) : isZeroFloat text = true ↔ ∀ c ∈ n.digits, c = '0' := by
  generalize htext : text.toList = cs at h
  cases h with
  | decimal => cases hradix
  | decimalExponent => cases hradix
  | hexadecimal hx h hexp =>
    apply h.isZeroFloat_hexadecimal hx _ hexp
    rcases hx with rfl | rfl <;> rw [htext, plain_cons (by decide), plain_cons (by decide), plain_append]
  | hexadecimalSpaced hx h _ hexp =>
    apply h.isZeroFloat_hexadecimal hx _ hexp
    rcases hx with rfl | rfl <;>
      rw [htext, plain_cons (by decide), plain_cons (by decide), plain_underscore, plain_append]

/-- The test is exact up to rounding: a literal passes it if its value is zero, that is, if all its digits
are zero, or if it is decimal and zero is the binary number nearest to its value. The latter holds for
values up to half of the least positive binary number, however many digits there are. -/
theorem isZeroFloat_of_spells {text : String} {n : Numeral} (h : Spells text.toList n) :
    (n.value = 0 ↔ ∀ c ∈ n.digits, c = '0') ∧
      (isZeroFloat text = true ↔ n.value = 0 ∨ n.radix = .decimal ∧ ZeroIsNearest n.value) ∧
      (ZeroIsNearest n.value ↔ n.value ≤ 2 ^ (-1075 : ℤ)) := by
  have hvalue := n.value_eq_zero_iff h.forall_mem
  have hnearest := zeroIsNearest_iff n.value_nonneg
  refine ⟨hvalue, ?_, hnearest⟩
  cases hradix : n.radix with
  | decimal =>
    have hzero : n.value = 0 → ZeroIsNearest n.value := by
      intro hzero
      rw [hnearest, hzero]
      exact halfLeast_pos.le
    rw [h.isZeroFloat_decimal hradix, and_iff_right rfl, or_iff_right_of_imp hzero]
  | hexadecimal =>
    rw [h.isZeroFloat_hexadecimal hradix, ← hvalue, or_iff_left]
    rintro ⟨⟨⟩, -⟩

/-- Underscores, a point and an exponent do not make zeros positive, and a small exponent does not make a
hexadecimal literal zero. -/
theorem isZeroFloat_of_spells_separated :
    (Spells "0_0.0e7".toList ⟨.decimal, ['0', '0'], ['0'], 7⟩ ∧ isZeroFloat "0_0.0e7" = true) ∧
      Spells "0X_0.8P-2000".toList ⟨.hexadecimal, ['0'], ['8'], -2000⟩ ∧
        isZeroFloat "0X_0.8P-2000" = false := by
  have hzero : Spells "0_0.0e7".toList ⟨.decimal, ['0', '0'], ['0'], 7⟩ :=
    .decimalExponent (.both (.spaced rfl (.single rfl)) (.single rfl)) (.unsigned (Or.inl rfl) (.single rfl))
  have hpositive : Spells "0X_0.8P-2000".toList ⟨.hexadecimal, ['0'], ['8'], -2000⟩ :=
    .hexadecimalSpaced (Or.inr rfl) (.both (.single rfl) (.single rfl)) (by decide)
      (.minus (Or.inr rfl) (.next rfl (.next rfl (.next rfl (.single rfl)))))
  obtain ⟨hvalue, htest, -⟩ := isZeroFloat_of_spells hzero
  obtain ⟨hvalue', htest', -⟩ := isZeroFloat_of_spells hpositive
  refine ⟨⟨hzero, htest.mpr (Or.inl (hvalue.mpr (by simp [Numeral.digits])))⟩, hpositive, ?_⟩
  rw [Bool.eq_false_iff, ne_eq, htest', hvalue']
  rintro (hdigits | ⟨⟨⟩, -⟩)
  exact absurd hdigits (by simp [Numeral.digits])

/-- A positive decimal literal below half of the least positive binary number passes the test. -/
theorem isZeroFloat_of_tiny_decimal :
    ∃ n, Spells "1e-400".toList n ∧ n.value ≠ 0 ∧ isZeroFloat "1e-400" = true := by
  have h : Spells "1e-400".toList ⟨.decimal, ['1'], [], -400⟩ :=
    .decimalExponent (.whole (.single rfl)) (.minus (Or.inl rfl) (.next rfl (.next rfl (.single rfl))))
  refine ⟨_, h, ?_, by decide +kernel⟩
  rw [ne_eq, Numeral.value_eq_zero_iff h.forall_mem]
  simp [Numeral.digits]

end GoComplexity.FloatLiteral
