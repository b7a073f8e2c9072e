import GoComplexity.Syntax.Binding
import Mathlib

/-!
# Type texts and the names they spell

The text of a type may put stars and blanks before a name, and blanks or type arguments after it.
`Spells` says so in terms of how the text is put together. Stripping a text finds a name exactly if
the text spells it, since letters and digits are neither blank nor brackets nor stars.
-/

namespace GoComplexity

namespace Text

/-! ## Blanks are no letters -/

/-- The ranges of the blank characters. -/
def blankRanges : Ranges :=
  [(9, 13), (0x20, 0x20), (0x85, 0x85), (0xA0, 0xA0), (0x1680, 0x1680), (0x2000, 0x200A),
    (0x2028, 0x2029), (0x202F, 0x202F), (0x205F, 0x205F), (0x3000, 0x3000)]

theorem has_blankRanges {c : Char} (h : isBlank c = true) : blankRanges.has c = true := by
  simp only [isBlank, Bool.or_eq_true, Bool.and_eq_true, decide_eq_true_eq, beq_iff_eq] at h
  simp only [blankRanges, Ranges.has, List.any_cons, List.any_nil, Bool.or_eq_true,
    Bool.and_eq_true, decide_eq_true_eq, Bool.or_false]
  omega

/-- Sets of characters are disjoint if each two of their ranges are. -/
theorem Ranges.has_eq_false {rs bs : Ranges}
    (h : (rs.all fun r ↦ bs.all fun b ↦ Nat.blt r.2 b.1 || Nat.blt b.2 r.1) = true) {c : Char}
    (hc : bs.has c = true) : rs.has c = false := by
  obtain ⟨b, hb, hbc⟩ := List.any_eq_true.mp hc
  rw [Bool.and_eq_true, decide_eq_true_eq, decide_eq_true_eq] at hbc
  rw [Ranges.has, List.any_eq_false]
  intro r hr
  have hapart := List.all_eq_true.mp (List.all_eq_true.mp h r hr) b hb
  rw [Bool.or_eq_true, Nat.blt_eq, Nat.blt_eq] at hapart
  simp only [Bool.and_eq_true, decide_eq_true_eq, not_and]
  omega

theorem isAlphanumeric_of_isBlank {c : Char} (h : isBlank c = true) : isAlphanumeric c = false := by
  have hletters : alphabetic.has c = false :=
    Ranges.has_eq_false (by decide +kernel) (has_blankRanges h)
  have hdigits : numeric.has c = false :=
    Ranges.has_eq_false (by decide +kernel) (has_blankRanges h)
  rw [isAlphanumeric, hletters, hdigits]
  rfl

/-! ## Cutting and trimming -/

/-- A text is cut at the first separator. -/
theorem cut_eq_some_iff {sep : Char} {cs before after : List Char} :
    cut sep cs = some (before, after) ↔ cs = before ++ sep :: after ∧ sep ∉ before := by
  induction cs generalizing before with
  | nil => simp [cut]
  | cons c rest ih =>
    rw [cut]
    by_cases hc : c = sep
    · subst hc
      rw [if_pos rfl]
      cases before with
      | nil => simp [eq_comm]
      | cons b more => simp +contextual [eq_comm]
    · rw [if_neg hc]
      cases before with
      | nil => simp [hc]
      | cons b more =>
        have hpair : (∃ p, cut sep rest = some p ∧ (c :: p.1, p.2) = (b :: more, after)) ↔
            c = b ∧ cut sep rest = some (more, after) := by
          constructor
          · rintro ⟨⟨before', after'⟩, hcut, heq⟩
            simp only [Prod.mk.injEq, List.cons.injEq] at heq
            obtain ⟨⟨hcb, rfl⟩, rfl⟩ := heq
            exact ⟨hcb, hcut⟩
          · rintro ⟨rfl, hcut⟩
            exact ⟨_, hcut, rfl⟩
        rw [Option.map_eq_some_iff, hpair, ih]
        simp only [List.cons_append, List.cons.injEq, List.mem_cons, not_or]
        constructor
        · rintro ⟨rfl, hrest, hmore⟩
          exact ⟨⟨rfl, hrest⟩, Ne.symm hc, hmore⟩
        · rintro ⟨⟨rfl, hrest⟩, -, hmore⟩
          exact ⟨rfl, hrest, hmore⟩

theorem cut_eq_none_iff {sep : Char} {cs : List Char} : cut sep cs = none ↔ sep ∉ cs := by
  induction cs with
  | nil => simp [cut]
  | cons c rest ih =>
    rw [cut]
    by_cases hc : c = sep
    · simp [hc]
    · rw [if_neg hc, Option.map_eq_none_iff, ih]
      simp [Ne.symm hc]

/-- Trimming takes away blanks only. -/
theorem exists_trimEnd (cs : List Char) :
    ∃ blanks, cs = trimEnd cs ++ blanks ∧ ∀ c ∈ blanks, isBlank c = true := by
  refine ⟨(cs.reverse.takeWhile isBlank).reverse, ?_, ?_⟩
  · rw [trimEnd, ← List.reverse_append, List.takeWhile_append_dropWhile, List.reverse_reverse]
  · intro c hc
    exact List.mem_takeWhile_imp (List.mem_reverse.mp hc)

theorem trimEnd_append_of_not_isBlank (cs : List Char) {c : Char} (hc : isBlank c = false)
    (rest : List Char) : trimEnd (cs ++ c :: rest) = cs ++ c :: trimEnd rest := by
  rw [trimEnd, trimEnd, List.reverse_append, List.reverse_cons, List.append_assoc,
    List.dropWhile_append]
  split_ifs with hblank
  · rw [List.isEmpty_iff.mp hblank]
    simp [hc]
  · simp

theorem trimEnd_eq_nil {blanks : List Char} (h : ∀ c ∈ blanks, isBlank c = true) :
    trimEnd blanks = [] := by
  rw [trimEnd, List.reverse_eq_nil_iff, List.dropWhile_eq_nil_iff]
  intro c hc
  exact h c (List.mem_reverse.mp hc)

theorem dropWhile_append_of_all {p : Char → Bool} {front cs : List Char}
    (hfront : ∀ c ∈ front, p c = true) (hcs : ∀ c ∈ cs.head?, p c = false) :
    (front ++ cs).dropWhile p = cs := by
  rw [List.dropWhile_append_of_pos hfront]
  cases cs with
  | nil => rfl
  | cons c rest => exact List.dropWhile_cons_of_neg (by simp [hcs c rfl])

end Text

namespace Syntax.TypeText

open Text

/-! ## Names in type texts -/

/-- Whether the text is the name, with stars and blanks before it and with blanks or type arguments
after it. -/
def Spells (text name : List Char) : Prop :=
  ∃ stars blanks rest, text = stars ++ (blanks ++ (name ++ rest)) ∧ (∀ c ∈ stars, c = '*') ∧
    (∀ c ∈ blanks, isBlank c = true) ∧
    ((∀ c ∈ rest, isBlank c = true) ∨ ∃ arguments, rest = '[' :: arguments)

/-- A letter, digit or underscore. -/
def isNameChar (c : Char) : Bool := isAlphanumeric c || c == '_'

/-- A name is a text of name characters, and not empty. -/
theorem isName_iff {cs : List Char} : isName cs = true ↔ cs ≠ [] ∧ ∀ c ∈ cs, isNameChar c = true := by
  simp only [isName, Bool.and_eq_true, List.all_eq_true, Bool.not_eq_true', List.isEmpty_eq_false_iff,
    isNameChar]

theorem isNameChar_of_isBlank {c : Char} (h : isBlank c = true) : isNameChar c = false := by
  rw [isNameChar, isAlphanumeric_of_isBlank h, Bool.false_or, beq_eq_false_iff_ne]
  rintro rfl
  exact absurd h (by decide)

theorem isBlank_of_isNameChar {c : Char} (h : isNameChar c = true) : isBlank c = false := by
  by_contra hblank
  rw [isNameChar_of_isBlank (Bool.not_eq_false _ ▸ hblank)] at h
  cases h

theorem ne_of_isNameChar {c d : Char} (h : isNameChar c = true) (hd : isNameChar d = false) :
    c ≠ d := by
  rintro rfl
  rw [hd] at h
  cases h

theorem isNameChar_dot : isNameChar '.' = false := by decide +kernel

theorem isNameChar_at : isNameChar '@' = false := by decide +kernel

theorem isNameChar_star : isNameChar '*' = false := by decide +kernel

theorem isNameChar_bracket : isNameChar '[' = false := by decide +kernel

/-- Names have none of the characters that structure a type text. -/
theorem not_mem_of_isName {cs : List Char} (h : isName cs = true) {c : Char}
    (hc : isNameChar c = false) : c ∉ cs := by
  intro hmem
  exact ne_of_isNameChar ((isName_iff.mp h).2 c hmem) hc rfl

/-- Stripping leaves a name that the text spells. -/
theorem spells_base (text : List Char) : Spells text (base text) := by
  have hstars := List.takeWhile_append_dropWhile (p := (· == '*')) (l := text)
  obtain ⟨after, hafter, hblank⟩ := exists_trimEnd (trimStart (text.dropWhile (· == '*')))
  have hblanks := List.takeWhile_append_dropWhile (p := isBlank) (l := text.dropWhile (· == '*'))
  have hname := List.takeWhile_append_dropWhile (p := (· != '[')) (l := trim (text.dropWhile (· == '*')))
  refine ⟨text.takeWhile (· == '*'), (text.dropWhile (· == '*')).takeWhile isBlank,
    (trim (text.dropWhile (· == '*'))).dropWhile (· != '[') ++ after, ?_, ?_, ?_, ?_⟩
  · rw [base, ← List.append_assoc ((trim _).takeWhile _), hname, trim, ← hafter, trimStart, hblanks,
      hstars]
  · intro c hc
    simpa using List.mem_takeWhile_imp hc
  · intro c hc
    exact List.mem_takeWhile_imp hc
  · cases hrest : (trim (text.dropWhile (· == '*'))).dropWhile (· != '[') with
    | nil => exact .inl (by simpa using hblank)
    | cons c arguments =>
      have hc : c = '[' := by
        have := List.head_dropWhile_not (· != '[') (l := trim (text.dropWhile (· == '*')))
          (by rw [hrest]; exact List.cons_ne_nil _ _)
        simpa [hrest] using this
      exact .inr ⟨arguments ++ after, by rw [hc]; rfl⟩

/-- A name is found in every text that spells it. -/
theorem base_eq_of_spells {text name : List Char} (h : Spells text name) (hne : name ≠ [])
    (hname : ∀ c ∈ name, isBlank c = false ∧ c ≠ '*' ∧ c ≠ '[') : base text = name := by
  obtain ⟨stars, blanks, rest, rfl, hstars, hblanks, hrest⟩ := h
  obtain ⟨first, more, rfl⟩ := List.exists_cons_of_ne_nil hne
  obtain ⟨hblank, hstar, -⟩ := hname first List.mem_cons_self
  have hdrop : (stars ++ (blanks ++ (first :: more ++ rest))).dropWhile (· == '*') =
      blanks ++ (first :: more ++ rest) := by
    apply dropWhile_append_of_all
    · intro c hc
      rw [hstars c hc]
      rfl
    · intro c hc
      cases blanks with
      | nil =>
        obtain rfl : first = c := by simpa using hc
        simpa using hstar
      | cons b bs =>
        obtain rfl : b = c := by simpa using hc
        rw [beq_eq_false_iff_ne]
        rintro rfl
        exact absurd (hblanks '*' List.mem_cons_self) (by decide)
  have hstart : trimStart (blanks ++ (first :: more ++ rest)) = first :: more ++ rest := by
    apply dropWhile_append_of_all hblanks
    intro c hc
    obtain rfl : first = c := by simpa using hc
    exact hblank
  have htake (tail : List Char) (htail : ∀ c ∈ tail.head?, c = '[') :
      (first :: more ++ tail).takeWhile (· != '[') = first :: more := by
    rw [List.takeWhile_append_of_pos fun c hc ↦ by simpa using (hname c hc).2.2]
    cases tail with
    | nil => simp
    | cons c tail => simp [htail c rfl]
  unfold base
  rw [hdrop, trim, hstart]
  rcases hrest with hrest | ⟨arguments, rfl⟩
  · -- Only blanks follow, so the end of the name is the end of what is kept.
    obtain ⟨front, last, hlast⟩ := List.eq_nil_or_concat' (first :: more) |>.resolve_left (by simp)
    have hlastBlank : isBlank last = false := by
      refine (hname last ?_).1
      rw [hlast]
      simp
    have hend : trimEnd (first :: more ++ rest) = first :: more ++ [] := by
      rw [hlast, List.append_assoc, List.singleton_append,
        trimEnd_append_of_not_isBlank front hlastBlank, trimEnd_eq_nil hrest, List.append_nil]
    rw [hend]
    exact htake [] (by simp)
  · rw [trimEnd_append_of_not_isBlank _ (by decide)]
    exact htake _ (by simp)

/-- Whether a text can name a type: a name that starts no unnamed type, or a qualified name. -/
def IsTypeName (name : List Char) : Prop :=
  (isName name = true ∧ String.ofList name ∉ unnamed) ∨
    ∃ qualifier member, name = qualifier ++ '.' :: member ∧ isName qualifier = true ∧
      isName member = true

theorem IsTypeName.ne_nil {name : List Char} (h : IsTypeName name) : name ≠ [] := by
  rcases h with ⟨h, -⟩ | ⟨qualifier, member, rfl, -⟩
  · exact (isName_iff.mp h).1
  · simp

theorem IsTypeName.plain {name : List Char} (h : IsTypeName name) {c : Char} (hc : c ∈ name) :
    isBlank c = false ∧ c ≠ '*' ∧ c ≠ '[' := by
  have hchar {c : Char} (h : isNameChar c = true) : isBlank c = false ∧ c ≠ '*' ∧ c ≠ '[' :=
    ⟨isBlank_of_isNameChar h, ne_of_isNameChar h isNameChar_star,
      ne_of_isNameChar h isNameChar_bracket⟩
  rcases h with ⟨h, -⟩ | ⟨qualifier, member, rfl, hqualifier, hmember⟩
  · exact hchar ((isName_iff.mp h).2 c hc)
  · rcases List.mem_append.mp hc with hc | hc
    · exact hchar ((isName_iff.mp hqualifier).2 c hc)
    rcases List.mem_cons.mp hc with rfl | hc
    · decide
    · exact hchar ((isName_iff.mp hmember).2 c hc)

/-- A text names a type exactly if what is left of it between stars and brackets is one. -/
theorem named?_eq_some_iff_base {type name : String} :
    named? type = some name ↔ base type.toList = name.toList ∧ IsTypeName name.toList := by
  constructor
  · intro h
    unfold named? at h
    cases hcut : cut '.' (base type.toList) with
    | some parts =>
      simp only [hcut, Option.ite_none_right_eq_some, Bool.and_eq_true, Option.some.injEq] at h
      obtain ⟨⟨hqualifier, hmember⟩, rfl⟩ := h
      rw [String.toList_ofList]
      exact ⟨rfl, .inr ⟨_, _, (cut_eq_some_iff.mp hcut).1, hqualifier, hmember⟩⟩
    | none =>
      simp only [hcut, Option.ite_none_right_eq_some, Bool.and_eq_true, Option.some.injEq] at h
      obtain ⟨⟨hname, hunnamed⟩, rfl⟩ := h
      rw [String.toList_ofList]
      exact ⟨rfl, .inl ⟨hname, by simpa using hunnamed⟩⟩
  · rintro ⟨hbase, hname⟩
    unfold named?
    rw [hbase]
    rcases hname with ⟨hname, hunnamed⟩ | ⟨qualifier, member, hparts, hqualifier, hmember⟩
    · have hcut := cut_eq_none_iff.mpr (not_mem_of_isName hname isNameChar_dot)
      rw [String.ofList_toList] at hunnamed
      simp [hcut, hname, hunnamed]
    · have hcut := cut_eq_some_iff.mpr ⟨hparts, not_mem_of_isName hqualifier isNameChar_dot⟩
      simp [hcut, hqualifier, hmember]

/-- The named type behind a text is the one that the text spells. -/
theorem named?_eq_some_iff {type name : String} :
    named? type = some name ↔ Spells type.toList name.toList ∧ IsTypeName name.toList := by
  rw [named?_eq_some_iff_base]
  constructor
  · rintro ⟨hbase, hname⟩
    exact ⟨hbase ▸ spells_base type.toList, hname⟩
  · rintro ⟨hspells, hname⟩
    exact ⟨base_eq_of_spells hspells hname.ne_nil fun c hc ↦ hname.plain hc, hname⟩

end Syntax.TypeText

end GoComplexity
