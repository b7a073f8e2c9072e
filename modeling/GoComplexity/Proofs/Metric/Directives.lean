import GoComplexity.Proofs.Config.Layers
import GoComplexity.Proofs.Resolve.TypeText
import GoComplexity.Proofs.Source.DocComments
import GoComplexity.Proofs.Workspace.Spelling

/-!
# Directives

A directive is a line whose trimmed text starts with the lead of a metric. Of the directives for one
metric the first counts, and in it each bound is that of the last part that sets it; the two bounds do
not depend on each other. No line is a directive for two metrics, so other lines may come and go. A
directive that is printed from two numbers of 64 bits gives exactly these numbers.
-/

namespace GoComplexity

/-! ## Numbers of 64 bits -/

namespace Text

/-- Whether a number fits in 64 bits with sign. -/
def Is64 (n : ℤ) : Prop := -2 ^ 63 ≤ n ∧ n < 2 ^ 63

instance : DecidablePred Is64 := fun _ ↦ inferInstanceAs (Decidable (_ ∧ _))

/-- Whether a text consists of digits, and what they stand for in base ten. -/
def IsNumeral (digits : List Char) (n : ℕ) : Prop :=
  digits ≠ [] ∧ (∀ c ∈ digits, c.isDigit = true) ∧ Nat.ofDigitChars 10 digits 0 = n

/-- The number of 64 bits that a text stands for: digits with at most one sign before them. -/
inductive Denotes64 : List Char → ℤ → Prop
  | unsigned {digits : List Char} {n : ℕ} (h : IsNumeral digits n) (hfits : Is64 n) :
    Denotes64 digits n
  | plus {digits : List Char} {n : ℕ} (h : IsNumeral digits n) (hfits : Is64 n) :
    Denotes64 ('+' :: digits) n
  | minus {digits : List Char} {n : ℕ} (h : IsNumeral digits n) (hfits : Is64 (-n)) :
    Denotes64 ('-' :: digits) (-n)

/-- Decimal digits are read as their value and nothing else is read at all. -/
theorem readNat?_eq_some_iff {cs : List Char} {n : ℕ} : readNat? cs = some n ↔ IsNumeral cs n := by
  unfold readNat? IsNumeral
  rw [Option.ite_none_right_eq_some, List.all_eq_true, Option.some.injEq, and_assoc]
  rfl

theorem fit64_eq_some_iff {m n : ℤ} : fit64 m = some n ↔ m = n ∧ Is64 m := by
  unfold fit64 Is64 minInt64 maxInt64
  rw [Option.ite_none_right_eq_some, Option.some.injEq]
  omega

theorem IsNumeral.isDigit_of_head? {digits : List Char} {n : ℕ} (h : IsNumeral digits n) {c : Char}
    {rest : List Char} (heq : digits = c :: rest) : c.isDigit = true := by
  apply h.2.1
  rw [heq]
  exact List.mem_cons_self

/-- Reading finds the number that a text stands for. -/
theorem readInt64?_eq_some_iff {text : List Char} {n : ℤ} :
    readInt64? text = some n ↔ Denotes64 text n := by
  constructor
  · intro h
    unfold readInt64? at h
    split at h
    all_goals
      obtain ⟨k, hk, hfit⟩ := Option.bind_eq_some_iff.mp h
      obtain ⟨rfl, hfits⟩ := fit64_eq_some_iff.mp hfit
      rw [readNat?_eq_some_iff] at hk
    · exact .minus hk hfits
    · exact .plus hk hfits
    · exact .unsigned hk hfits
  · intro h
    cases h with
    | unsigned h hfits =>
      rw [readInt64?, readNat?_eq_some_iff.mpr h]
      · exact fit64_eq_some_iff.mpr ⟨rfl, hfits⟩
      · rintro cs rfl
        exact absurd (h.isDigit_of_head? rfl) (by decide)
      · rintro cs rfl
        exact absurd (h.isDigit_of_head? rfl) (by decide)
    | plus h hfits =>
      rw [readInt64?, readNat?_eq_some_iff.mpr h]
      exact fit64_eq_some_iff.mpr ⟨rfl, hfits⟩
    | minus h hfits =>
      rw [readInt64?, readNat?_eq_some_iff.mpr h]
      exact fit64_eq_some_iff.mpr ⟨rfl, hfits⟩

/-- The usual digits of a number spell it. -/
theorem isNumeral_toDigits (n : ℕ) : IsNumeral (Nat.toDigits 10 n) n :=
  ⟨Nat.toDigits_ne_nil, fun _ hc ↦ Nat.isDigit_of_mem_toDigits (by omega) (by omega) hc,
    Nat.ofDigitChars_ten_toDigits⟩

/-- A printed number stands for itself. -/
theorem denotes64_toString {n : ℤ} (h : Is64 n) : Denotes64 (toString n).toList n := by
  cases n with
  | ofNat n =>
    have htext : (toString (Int.ofNat n)).toList = Nat.toDigits 10 n := String.toList_ofList
    rw [htext]
    exact .unsigned (isNumeral_toDigits n) h
  | negSucc n =>
    have htext : (toString (Int.negSucc n)).toList = '-' :: Nat.toDigits 10 (n + 1) := by
      change ("-" ++ Nat.repr (n + 1)).toList = _
      rw [String.toList_append, Nat.repr, String.toList_ofList, String.toList_ofList]
      rfl
    rw [htext]
    exact .minus (isNumeral_toDigits (n + 1)) h

theorem Denotes64.isDigit_or_sign {text : List Char} {n : ℤ} (h : Denotes64 text n) :
    ∀ c ∈ text, c.isDigit = true ∨ c = '+' ∨ c = '-' := by
  intro c hc
  cases h with
  | unsigned h => exact Or.inl (h.2.1 c hc)
  | plus h =>
    rcases List.mem_cons.mp hc with rfl | hc
    · exact Or.inr (Or.inl rfl)
    · exact Or.inl (h.2.1 c hc)
  | minus h =>
    rcases List.mem_cons.mp hc with rfl | hc
    · exact Or.inr (Or.inr rfl)
    · exact Or.inl (h.2.1 c hc)

theorem isBlank_of_isDigit {c : Char} (h : c.isDigit = true) : isBlank c = false := by
  simp only [Char.isDigit, Bool.and_eq_true, decide_eq_true_eq] at h
  have hlow : 48 ≤ c.toNat := h.1
  have hhigh : c.toNat ≤ 57 := h.2
  simp only [isBlank, Bool.or_eq_false_iff, Bool.and_eq_false_iff, decide_eq_false_iff_not,
    beq_eq_false_iff_ne]
  omega

theorem Denotes64.isBlank {text : List Char} {n : ℤ} (h : Denotes64 text n) :
    ∀ c ∈ text, isBlank c = false := by
  intro c hc
  rcases h.isDigit_or_sign c hc with hdigit | rfl | rfl
  · exact isBlank_of_isDigit hdigit
  · rfl
  · rfl

theorem trim_eq_self {cs : List Char} (h : ∀ c ∈ cs, isBlank c = false) : trim cs = cs := by
  have hkeep {cs : List Char} (h : ∀ c ∈ cs, isBlank c = false) : cs.dropWhile isBlank = cs := by
    cases cs with
    | nil => rfl
    | cons c cs => exact List.dropWhile_cons_of_neg (by simp [h c List.mem_cons_self])
  unfold trim trimEnd trimStart
  rw [hkeep h, hkeep fun c hc ↦ h c (List.mem_reverse.mp hc), List.reverse_reverse]

end Text

open Text

/-! ## Parts -/

/-- The key by which a directive names a bound. -/
def Bound.key : Bound → List Char
  | .warn => "warn".toList
  | .fail => "fail".toList

namespace Override

/-- Whether a part sets a key to a number: the key stands before the first equals sign and the number
behind it, both trimmed. -/
def Sets (part key : List Char) (n : ℤ) : Prop :=
  ∃ before after, trim part = before ++ '=' :: after ∧ '=' ∉ before ∧ trim before = key ∧
    Denotes64 (trim after) n

/-- A part of a directive is read exactly if it sets a key to a number in range. -/
theorem readPart?_eq_some_iff {part key : List Char} {n : ℤ} :
    readPart? part = some (key, n) ↔ Sets part key n := by
  unfold readPart? Sets
  simp only [Option.bind_eq_bind, Option.bind_eq_some_iff, Option.pure_def, Option.some.injEq,
    Prod.mk.injEq, Prod.exists, cut_eq_some_iff, readInt64?_eq_some_iff]
  constructor
  · rintro ⟨before, after, ⟨hpart, hbefore⟩, n, hn, hkey, rfl⟩
    exact ⟨before, after, hpart, hbefore, hkey, hn⟩
  · rintro ⟨before, after, hpart, hbefore, hkey, hn⟩
    exact ⟨before, after, ⟨hpart, hbefore⟩, n, hn, hkey, rfl⟩

/-- What a part sets a bound to. -/
def value? (b : Bound) (part : List Char) : Option ℤ :=
  (readPart? part).bind fun entry ↦ if entry.1 = b.key then some entry.2 else none

theorem value?_eq_some_iff {b : Bound} {part : List Char} {n : ℤ} :
    value? b part = some n ↔ Sets part b.key n := by
  rw [← readPart?_eq_some_iff, value?, Option.bind_eq_some_iff]
  constructor
  · rintro ⟨⟨key, k⟩, hpart, hvalue⟩
    rw [Option.ite_none_right_eq_some, Option.some.injEq] at hvalue
    obtain ⟨rfl, rfl⟩ := hvalue
    exact hpart
  · intro hpart
    exact ⟨_, hpart, if_pos rfl⟩

theorem value?_eq_none_iff {b : Bound} {part : List Char} :
    value? b part = none ↔ ∀ n, ¬ Sets part b.key n := by
  rw [Option.eq_none_iff_forall_ne_some]
  exact forall_congr' fun n ↦ not_congr value?_eq_some_iff

/-- A part sets the bound that it names and leaves the other one alone. -/
theorem bound_applyPart (b : Bound) (t : Thresholds) (part : List Char) :
    (applyPart t part).bound b = (value? b part).getD (t.bound b) := by
  unfold applyPart value?
  cases readPart? part with
  | none => rfl
  | some entry =>
    obtain ⟨key, n⟩ := entry
    dsimp only
    cases b with
    | warn =>
      change Thresholds.warn _ = (if key = "warn".toList then some n else none).getD t.warn
      split_ifs <;> rfl
    | fail =>
      change Thresholds.fail _ = (if key = "fail".toList then some n else none).getD t.fail
      split_ifs with hwarn hfail
      · exact absurd (hwarn.symm.trans hfail) (by decide)
      all_goals rfl

/-- Whether a bound is the number of the last part that sets it, or the default if none does. -/
def IsLastSet (parts : List (List Char)) (key : List Char) (default value : ℤ) : Prop :=
  (∃ before part after, parts = before ++ part :: after ∧ Sets part key value ∧
    ∀ later ∈ after, ∀ n, ¬ Sets later key n) ∨
  (value = default ∧ ∀ part ∈ parts, ∀ n, ¬ Sets part key n)

/-- After all parts a bound is what the last part for it sets, or what it was before. -/
theorem isLastSet_foldl (b : Bound) (t : Thresholds) (parts : List (List Char)) :
    IsLastSet parts b.key (t.bound b) ((parts.foldl applyPart t).bound b) := by
  rw [read_foldl_eq_last applyPart (fun t ↦ t.bound b) (value? b) (bound_applyPart b)]
  cases hlast : parts.reverse.findSome? (value? b) with
  | none =>
    rw [List.findSome?_eq_none_iff] at hlast
    refine Or.inr ⟨rfl, ?_⟩
    intro part hpart
    exact value?_eq_none_iff.mp (hlast part (List.mem_reverse.mpr hpart))
  | some n =>
    obtain ⟨after, part, before, hparts, hpart, hafter⟩ := List.findSome?_eq_some_iff.mp hlast
    refine Or.inl ⟨before.reverse, part, after.reverse, ?_, value?_eq_some_iff.mp hpart, ?_⟩
    · rw [← List.reverse_reverse parts, hparts]
      simp
    · intro later hlater
      exact value?_eq_none_iff.mp (hafter later (List.mem_reverse.mp hlater))

/-! ## Lines -/

/-- Whether a line is a directive for a metric. -/
def IsFor (m : Metric) (line : String) : Prop :=
  ("//complexity:" ++ m.name ++ ":").toList <+: trim line.toList

instance (m : Metric) : DecidablePred (IsFor m) := fun _ ↦ inferInstanceAs (Decidable (_ <+: _))

/-- Whether a line is a directive for a metric is decided by how it starts, blanks apart. -/
theorem isFor_iff {m : Metric} {line : String} :
    IsFor m line ↔ ∃ directive, after? (lead m.name) (trim line.toList) = some directive := by
  unfold IsFor lead
  exact exists_congr fun directive ↦ eq_comm.trans after?_eq_some_iff.symm

theorem isFor_iff_isDirective {m : Metric} {line : String} :
    IsFor m line ↔ Source.IsDirective m.name line := by
  rw [isFor_iff, Source.IsDirective, Option.isSome_iff_exists]

/-- No line is a directive for two metrics. -/
theorem eq_of_isFor {m m' : Metric} {line : String} (h : IsFor m line) (h' : IsFor m' line) :
    m = m' := by
  rcases List.prefix_or_prefix_of_prefix h h' with hlead | hlead
  · revert hlead
    cases m <;> cases m' <;> decide
  · revert hlead
    cases m <;> cases m' <;> decide

theorem find?_eq_none {m : Metric} {lines : List String} (h : ∀ line ∈ lines, ¬ IsFor m line) :
    find? lines m.name = none := by
  rw [find?, List.findSome?_eq_none_iff]
  intro line hline
  rw [Option.eq_none_iff_forall_ne_some]
  intro directive hdirective
  exact h line hline (isFor_iff.mpr ⟨directive, hdirective⟩)

theorem find?_append (lines lines' : List String) (metric : String) :
    find? (lines ++ lines') metric = (find? lines metric).or (find? lines' metric) :=
  List.findSome?_append

/-- Lines that are no directives for a metric can be left out anywhere. -/
theorem resolve_append_append {m : Metric} {lines : List String}
    (h : ∀ line ∈ lines, ¬ IsFor m line) (before after : List String) (t : Thresholds) :
    resolve (before ++ lines ++ after) m.name t = resolve (before ++ after) m.name t := by
  unfold resolve
  rw [find?_append, find?_append, find?_append, find?_eq_none h, Option.or_none]

/-- Lines in front of the first directive and all lines after it are without effect. -/
theorem resolve_of_first_isFor {m : Metric} {line : String} {before : List String}
    (hbefore : ∀ other ∈ before, ¬ IsFor m other) (hline : IsFor m line) (after : List String)
    (t : Thresholds) : resolve (before ++ line :: after) m.name t = resolve [line] m.name t := by
  apply Source.resolve_of_first
  · intro other hother
    rw [← isFor_iff_isDirective]
    exact hbefore other hother
  · exact isFor_iff_isDirective.mp hline

theorem resolve_singleton {m : Metric} {line : String} {directive : List Char}
    (h : trim line.toList = ("//complexity:" ++ m.name ++ ":").toList ++ directive) (t : Thresholds) :
    resolve [line] m.name t = (directive.splitOn ',').foldl applyPart t := by
  have hfind : find? [line] m.name = some directive := by
    rw [find?, List.findSome?_singleton]
    exact after?_eq_some_iff.mpr h
  rw [resolve, hfind, ← split_eq_splitOn]

/-! ## Printed directives -/

/-- The part that sets a bound to a number. -/
def printPart (b : Bound) (n : ℤ) : List Char := b.key ++ '=' :: (toString n).toList

/-- The line that sets both bounds of a metric. -/
def print (m : Metric) (warn fail : ℤ) : String :=
  "//complexity:" ++ m.name ++ ":warn=" ++ toString warn ++ ",fail=" ++ toString fail

theorem isBlank_printPart (b : Bound) {n : ℤ} (h : Is64 n) :
    ∀ c ∈ printPart b n, isBlank c = false := by
  have hkey : ((b.key ++ ['=']).all fun c ↦ !isBlank c) = true := by cases b <;> decide +kernel
  intro c hc
  rw [printPart, List.append_cons, List.mem_append] at hc
  rcases hc with hc | hc
  · exact (Bool.not_eq_true' _).mp (List.all_eq_true.mp hkey c hc)
  · exact (denotes64_toString h).isBlank c hc

theorem comma_not_mem_printPart (b : Bound) {n : ℤ} (h : Is64 n) : ',' ∉ printPart b n := by
  have hkey : ',' ∉ b.key ++ ['='] := by cases b <;> decide
  intro hc
  rw [printPart, List.append_cons, List.mem_append] at hc
  rcases hc with hc | hc
  · exact hkey hc
  · exact absurd ((denotes64_toString h).isDigit_or_sign ',' hc) (by decide)

/-- A printed bound can be read back. -/
theorem sets_printPart (b : Bound) {n : ℤ} (h : Is64 n) : Sets (printPart b n) b.key n := by
  have hdenotes := denotes64_toString h
  refine ⟨b.key, (toString n).toList, trim_eq_self (isBlank_printPart b h), ?_, ?_, ?_⟩
  · cases b <;> decide
  · cases b <;> rfl
  · rw [trim_eq_self hdenotes.isBlank]
    exact hdenotes

/-- A printed bound sets this bound and no other. -/
theorem applyPart_printPart (b : Bound) {n : ℤ} (h : Is64 n) (t : Thresholds) :
    applyPart t (printPart b n) = match b with
      | .warn => { t with warn := n }
      | .fail => { t with fail := n } := by
  rw [applyPart, readPart?_eq_some_iff.mpr (sets_printPart b h)]
  cases b <;> rfl

/-- A printed directive has no blanks around it, and its parts are the two printed bounds. -/
theorem trim_print (m : Metric) {warn fail : ℤ} (hwarn : Is64 warn) (hfail : Is64 fail) :
    trim (print m warn fail).toList = ("//complexity:" ++ m.name ++ ":").toList ++
      [','].intercalate [printPart .warn warn, printPart .fail fail] := by
  have htext : (print m warn fail).toList = ("//complexity:" ++ m.name ++ ":").toList ++
      [','].intercalate [printPart .warn warn, printPart .fail fail] := by
    have hwarn : ":warn=".toList = ":".toList ++ Bound.warn.key ++ ['='] := by decide
    have hfail : ",fail=".toList = [','] ++ Bound.fail.key ++ ['='] := by decide
    unfold print printPart
    rw [List.intercalate_cons_cons, List.intercalate_singleton, List.append_cons Bound.warn.key,
      List.append_cons Bound.fail.key]
    simp only [String.toList_append, hwarn, hfail, List.append_assoc]
  rw [← htext]
  apply trim_eq_self
  rw [htext]
  intro c hc
  have hlead : (("//complexity:" ++ m.name ++ ":").toList.all fun c ↦ !isBlank c) = true := by
    cases m <;> decide +kernel
  rw [List.intercalate_cons_cons, List.intercalate_singleton] at hc
  simp only [List.append_assoc, List.mem_append, List.mem_singleton] at hc
  rcases hc with hc | hc | rfl | hc
  · exact (Bool.not_eq_true' _).mp (List.all_eq_true.mp hlead c hc)
  · exact isBlank_printPart .warn hwarn c hc
  · rfl
  · exact isBlank_printPart .fail hfail c hc

/-- A printed directive gives the numbers that it was printed from. -/
theorem resolve_print (m : Metric) {warn fail : ℤ} (hwarn : Is64 warn) (hfail : Is64 fail)
    (t : Thresholds) : resolve [print m warn fail] m.name t = ⟨warn, fail⟩ := by
  have hcomma : ∀ part ∈ [printPart .warn warn, printPart .fail fail], ',' ∉ part := by
    intro part hpart
    rcases List.mem_pair.mp hpart with rfl | rfl
    · exact comma_not_mem_printPart .warn hwarn
    · exact comma_not_mem_printPart .fail hfail
  calc
    resolve [print m warn fail] m.name t =
        [printPart .warn warn, printPart .fail fail].foldl applyPart t := by
      rw [resolve_singleton (trim_print m hwarn hfail), List.splitOn_intercalate _ hcomma (by simp)]
    _ = applyPart { t with warn := warn } (printPart .fail fail) := by
      rw [List.foldl_cons, applyPart_printPart .warn hwarn]
      rfl
    _ = ⟨warn, fail⟩ := applyPart_printPart .fail hfail _

/-- The thresholds of a metric are the defaults unless a line is a directive for it. The first such line
decides alone, and in it the last part that sets a bound. Lines for other metrics, lines that are no
directives and lines behind the first directive do not matter, and a printed directive gives back its
numbers. -/
theorem first_directive_decides (m : Metric) (t : Thresholds) :
    (∀ doc, (∀ line ∈ doc, ¬ IsFor m line) → resolve doc m.name t = t) ∧
    (∀ before line after directive, (∀ other ∈ before, ¬ IsFor m other) →
      trim line.toList = ("//complexity:" ++ m.name ++ ":").toList ++ directive →
      IsLastSet (directive.splitOn ',') "warn".toList t.warn
        (resolve (before ++ line :: after) m.name t).warn ∧
      IsLastSet (directive.splitOn ',') "fail".toList t.fail
        (resolve (before ++ line :: after) m.name t).fail) ∧
    (∀ before lines after,
      (∀ line ∈ lines, (∃ m', m' ≠ m ∧ IsFor m' line) ∨ ∀ m', ¬ IsFor m' line) →
      resolve (before ++ lines ++ after) m.name t = resolve (before ++ after) m.name t) ∧
    (∀ before line after after', (∀ other ∈ before, ¬ IsFor m other) → IsFor m line →
      resolve (before ++ line :: after) m.name t = resolve (before ++ line :: after') m.name t) ∧
    ∀ before after warn fail, (∀ other ∈ before, ¬ IsFor m other) → Is64 warn → Is64 fail →
      resolve (before ++ print m warn fail :: after) m.name t = ⟨warn, fail⟩ := by
  refine ⟨?_, ?_, ?_, ?_, ?_⟩
  · intro doc hdoc
    rw [resolve, find?_eq_none hdoc]
  · intro before line after directive hbefore hline
    rw [resolve_of_first_isFor hbefore ⟨directive, hline.symm⟩, resolve_singleton hline]
    exact ⟨isLastSet_foldl .warn t _, isLastSet_foldl .fail t _⟩
  · intro before lines after hlines
    apply resolve_append_append
    intro line hline hfor
    rcases hlines line hline with ⟨m', hne, hfor'⟩ | hnone
    · exact hne (eq_of_isFor hfor' hfor)
    · exact hnone m hfor
  · intro before line after after' hbefore hline
    rw [resolve_of_first_isFor hbefore hline, resolve_of_first_isFor hbefore hline]
  · intro before after warn fail hbefore hwarn hfail
    have hprint : IsFor m (print m warn fail) := ⟨_, (trim_print m hwarn hfail).symm⟩
    rw [resolve_of_first_isFor hbefore hprint, resolve_print m hwarn hfail]

/-- Blanks, repeated and unreadable parts in the first directive, lines for other metrics around it, and
the two ends of the range of numbers. -/
theorem first_directive_decides_untidy_lines :
    let line := "  //complexity:cyclo: warn = 7 ,max=3,fail=x,warn=+8 ,fail, warn=9223372036854775808"
    let directive := " warn = 7 ,max=3,fail=x,warn=+8 ,fail, warn=9223372036854775808".toList
    let other := "//complexity:params:warn=1"
    let later := "//complexity:cyclo:warn=1"
    ¬ IsFor .cyclo other ∧ IsFor .params other ∧ IsFor .cyclo line ∧
      resolve [other, "// text"] "cyclo" ⟨9, 14⟩ = ⟨9, 14⟩ ∧
      IsLastSet (directive.splitOn ',') "warn".toList 9 (resolve [other, line, later] "cyclo" ⟨9, 14⟩).warn ∧
      IsLastSet (directive.splitOn ',') "fail".toList 14 (resolve [other, line, later] "cyclo" ⟨9, 14⟩).fail ∧
      resolve [other, line, later] "cyclo" ⟨9, 14⟩ = ⟨8, 14⟩ ∧
      resolve [line, other, "// text", later] "cyclo" ⟨9, 14⟩ = resolve [line, later] "cyclo" ⟨9, 14⟩ ∧
      resolve [line, later] "cyclo" ⟨9, 14⟩ = resolve [line, other] "cyclo" ⟨9, 14⟩ ∧
      resolve [other, print .cyclo (-9223372036854775808) 9223372036854775807, later] "cyclo" ⟨9, 14⟩ =
        ⟨-9223372036854775808, 9223372036854775807⟩ := by
  intro line directive other later
  obtain ⟨hnone, hfirst, hinsert, hbehind, hprint⟩ := first_directive_decides .cyclo ⟨9, 14⟩
  have hother : ¬ IsFor .cyclo other := by decide +kernel
  have hparams : IsFor .params other := by decide +kernel
  have hline : IsFor .cyclo line := by decide +kernel
  have htext : ∀ m, ¬ IsFor m "// text" := by
    intro m
    cases m <;> decide +kernel
  have hbefore : ∀ before ∈ [other], ¬ IsFor .cyclo before := List.forall_mem_singleton.mpr hother
  have hlast := hfirst [other] line [later] directive hbefore (by decide +kernel)
  refine ⟨hother, hparams, hline, ?_, hlast.1, hlast.2, ?_, ?_, ?_, ?_⟩
  · apply hnone
    rw [List.forall_mem_cons, List.forall_mem_singleton]
    exact ⟨hother, htext .cyclo⟩
  · decide +kernel
  · apply hinsert [line] [other, "// text"] [later]
    rw [List.forall_mem_cons, List.forall_mem_singleton]
    exact ⟨Or.inl ⟨.params, by decide, hparams⟩, Or.inr htext⟩
  · exact hbehind [] line [later] [other] (List.forall_mem_nil _) hline
  · exact hprint [other] [later] _ _ hbefore (by decide) (by decide)

end Override

end GoComplexity
