import GoComplexity.Report.Json
import Mathlib.Data.Int.Basic
import Mathlib.Data.List.Basic
import Mathlib.Tactic.SplitIfs

/-!
# Reading JSON

A reader for JSON texts: blanks between tokens, strings with the standard escapes and surrogate pairs,
whole numbers, truth values, arrays and objects. It knows nothing of how values are written. What is
written reads back as the value it was written from, so the text determines the value.
-/

namespace GoComplexity.Json

/-! ## Blanks -/

def isBlank (c : Char) : Bool := c == ' ' || c == '\n' || c == '\r' || c == '\t'

def skipBlanks (cs : List Char) : List Char := cs.dropWhile isBlank

/-- Whether a text starts with a token and not with a blank. -/
def StartsToken (cs : List Char) : Prop := ∃ c rest, cs = c :: rest ∧ isBlank c = false

theorem skipBlanks_of_startsToken {cs : List Char} (h : StartsToken cs) : skipBlanks cs = cs := by
  obtain ⟨c, rest, rfl, hc⟩ := h
  simp [skipBlanks, hc]

/-- Blanks in front of a token are skipped, and the token is not touched. -/
theorem skipBlanks_append {blanks cs : List Char} (hblanks : ∀ c ∈ blanks, isBlank c = true)
    (h : StartsToken cs) : skipBlanks (blanks ++ cs) = cs := by
  obtain ⟨c, rest, rfl, hc⟩ := h
  rw [skipBlanks, List.dropWhile_append_of_pos hblanks, List.dropWhile_cons_of_neg (by simp [hc])]

theorem isBlank_of_mem_newline (depth : ℕ) : ∀ c ∈ newline depth, isBlank c = true := by
  intro c hc
  rcases List.mem_cons.mp hc with rfl | hc
  · rfl
  · rw [List.eq_of_mem_replicate hc]
    rfl

theorem skipBlanks_newline (depth : ℕ) {cs : List Char} (h : StartsToken cs) :
    skipBlanks (newline depth ++ cs) = cs :=
  skipBlanks_append (isBlank_of_mem_newline depth) h

/-! ## Strings -/

/-- The value of a hexadecimal digit. -/
def hexValue? (c : Char) : Option ℕ :=
  if '0' ≤ c ∧ c ≤ '9' then some (c.toNat - 48)
  else if 'a' ≤ c ∧ c ≤ 'f' then some (c.toNat - 87)
  else if 'A' ≤ c ∧ c ≤ 'F' then some (c.toNat - 55)
  else none

/-- The code unit of four hexadecimal digits. -/
def unit? (a b c d : Char) : Option ℕ := do
  return ((← hexValue? a) * 16 + (← hexValue? b)) * 256 + ((← hexValue? c) * 16 + (← hexValue? d))

/-- The character that a letter after a backslash stands for. -/
def escaped? : Char → Option Char
  | '\x22' => some '\x22'
  | '\\' => some '\\'
  | '/' => some '/'
  | 'b' => some '\x08'
  | 'f' => some '\x0c'
  | 'n' => some '\n'
  | 'r' => some '\r'
  | 't' => some '\t'
  | _ => none

/-- The character of two surrogates. -/
def paired? (high low : ℕ) : Option Char :=
  if 0xD800 ≤ high ∧ high < 0xDC00 ∧ 0xDC00 ≤ low ∧ low < 0xE000 then
    some (Char.ofNat (0x10000 + (high - 0xD800) * 0x400 + (low - 0xDC00)))
  else none

/-- The first character of a string's text, with what follows it. -/
def readChar? : List Char → Option (Char × List Char)
  | '\\' :: 'u' :: a :: b :: c :: d :: rest => do
    let unit ← unit? a b c d
    if unit < 0xD800 ∨ 0xE000 ≤ unit then return (Char.ofNat unit, rest)
    else match rest with
      | '\\' :: 'u' :: a :: b :: c :: d :: rest => return (← paired? unit (← unit? a b c d), rest)
      | _ => none
  | '\\' :: letter :: rest => return (← escaped? letter, rest)
  | c :: rest => if c < ' ' ∨ c = '\\' then none else some (c, rest)
  | [] => none

/-- Reads a string after its opening quote. Each step takes at least one character, so as many steps as
there are characters suffice. -/
def readString? : ℕ → List Char → Option (List Char × List Char)
  | 0, _ => none
  | _ + 1, '\x22' :: rest => some ([], rest)
  | fuel + 1, cs => do
    let (c, rest) ← readChar? cs
    let (text, rest) ← readString? fuel rest
    return (c :: text, rest)

/-- A control character is written by number, with two zeros in front. -/
theorem unit?_control (n : ℕ) (h : n < 32) :
    unit? '0' '0' (Nat.digitChar (n / 16)) (Nat.digitChar (n % 16)) = some n := by
  revert n
  decide

/-- An escaped character reads back, whatever follows. -/
theorem readChar?_escapeChar (c : Char) (rest : List Char) :
    readChar? (escapeChar c ++ rest) = some (c, rest) := by
  rw [escapeChar]
  split_ifs with h1 h2 h3 h4 h5 h6 h7 h8
  · rw [h1]; rfl
  · rw [h2]; rfl
  · rw [h3]; rfl
  · rw [h4]; rfl
  · rw [h5]; rfl
  · rw [h6]; rfl
  · rw [h7]; rfl
  · have hlt : c.toNat < 32 := h8
    have hunit := unit?_control c.toNat hlt
    have hlow : c.toNat < 0xD800 := by omega
    simp only [controlEscape, List.cons_append, List.nil_append, readChar?]
    rw [hunit]
    simp [hlow]
  · rw [List.singleton_append, readChar?.eq_def]
    split <;> simp_all

/-- No escaped character starts with a quote, so a string ends only at its own. -/
theorem escapeChar_ne_quote (c : Char) (rest tail : List Char) :
    escapeChar c ++ rest ≠ '\x22' :: tail := by
  rw [escapeChar]
  split_ifs with h1 <;> simp_all [controlEscape]

/-- An escaped text is read back up to the closing quote. -/
theorem readString?_flatMap_escapeChar (text : List Char) (rest : List Char) {fuel : ℕ}
    (hfuel : text.length < fuel) :
    readString? fuel (text.flatMap escapeChar ++ '\x22' :: rest) = some (text, rest) := by
  induction text generalizing fuel with
  | nil =>
    obtain ⟨fuel, rfl⟩ := Nat.exists_eq_add_of_lt hfuel
    rfl
  | cons c text ih =>
    obtain ⟨fuel, rfl⟩ := Nat.exists_eq_add_of_lt hfuel
    have hlength : text.length < text.length + 1 + fuel := by omega
    have hnext := ih hlength
    rw [List.flatMap_cons, List.append_assoc, List.length_cons,
      readString?.eq_3 _ _ (escapeChar_ne_quote c _), readChar?_escapeChar]
    simp [hnext]

/-! ## Numbers -/

/-- Whether a character would go on with a number. -/
def continuesNumber (c : Char) : Bool := c.isDigit || c == '.' || c == 'e' || c == 'E'

/-- Whether a number ends before the text. -/
def EndsNumber (cs : List Char) : Prop := ∀ c ∈ cs.head?, continuesNumber c = false

/-- Reads a whole number without sign: digits without a zero in front of others, and no fraction or
exponent behind them. -/
def readNat? (cs : List Char) : Option (ℕ × List Char) :=
  let digits := cs.takeWhile Char.isDigit
  let rest := cs.dropWhile Char.isDigit
  if digits = [] ∨ (digits.head? = some '0' ∧ digits ≠ ['0']) ∨ rest.head?.any continuesNumber then none
  else some (Nat.ofDigitChars 10 digits 0, rest)

def readInt? : List Char → Option (ℤ × List Char)
  | '-' :: cs => (readNat? cs).map fun (n, rest) ↦ (-(n : ℤ), rest)
  | cs => (readNat? cs).map fun (n, rest) ↦ ((n : ℤ), rest)

/-- The digits of a number start with a zero only for zero. -/
theorem head?_toDigits_ne_zero (n : ℕ) (hn : 0 < n) : (Nat.toDigits 10 n).head? ≠ some '0' := by
  induction n using Nat.strongRecOn with
  | ind n ih =>
    by_cases hlt : n < 10
    · rw [Nat.toDigits_of_lt_base hlt]
      intro hzero
      have hchar := Option.some.inj hzero
      rw [Nat.digitChar_eq_zero] at hchar
      omega
    · rw [Nat.toDigits_of_base_le (by omega) (by omega), List.head?_append_of_ne_nil _ Nat.toDigits_ne_nil]
      exact ih (n / 10) (by omega) (by omega)

/-- Digits are read as far as they go. -/
theorem readNat?_toDigits (n : ℕ) {rest : List Char} (hrest : EndsNumber rest) :
    readNat? (Nat.toDigits 10 n ++ rest) = some (n, rest) := by
  have hdigits : ∀ c ∈ Nat.toDigits 10 n, c.isDigit = true :=
    fun c hc ↦ Nat.isDigit_of_mem_toDigits (by omega) (by omega) hc
  have hstop : ∀ c ∈ rest.head?, c.isDigit = false := by
    intro c hc
    have := hrest c hc
    simp only [continuesNumber, Bool.or_eq_false_iff] at this
    exact this.1.1.1
  have htake : rest.takeWhile Char.isDigit = [] ∧ rest.dropWhile Char.isDigit = rest := by
    cases rest with
    | nil => exact ⟨rfl, rfl⟩
    | cons c rest => simp [hstop c rfl]
  have hzero : ¬ ((Nat.toDigits 10 n).head? = some '0' ∧ Nat.toDigits 10 n ≠ ['0']) := by
    rintro ⟨hhead, hne⟩
    rcases Nat.eq_zero_or_pos n with rfl | hpos
    · exact hne rfl
    · exact head?_toDigits_ne_zero n hpos hhead
  have hends : rest.head?.any continuesNumber = false := by
    cases rest with
    | nil => rfl
    | cons c rest => exact hrest c rfl
  rw [readNat?, List.takeWhile_append_of_pos hdigits, List.dropWhile_append_of_pos hdigits, htake.1,
    htake.2, List.append_nil, if_neg, Nat.ofDigitChars_ten_toDigits]
  simp [Nat.toDigits_ne_nil, hzero, hends]

/-- A written integer is read back, if what follows does not go on with digits. -/
theorem readInt?_toString (n : ℤ) {rest : List Char} (hrest : EndsNumber rest) :
    readInt? ((toString n).toList ++ rest) = some (n, rest) := by
  cases n with
  | ofNat n =>
    have htext : (toString (Int.ofNat n)).toList = Nat.toDigits 10 n := String.toList_ofList
    have hsign (cs : List Char) : Nat.toDigits 10 n ++ rest ≠ '-' :: cs := by
      intro heq
      have hhead := congrArg List.head? heq
      rw [List.head?_append_of_ne_nil _ Nat.toDigits_ne_nil] at hhead
      have := Nat.isDigit_of_mem_toDigits (by omega) (by omega) (List.mem_of_head? hhead)
      simp at this
    rw [htext, readInt?.eq_2 _ hsign, readNat?_toDigits n hrest]
    rfl
  | negSucc n =>
    have htext : (toString (Int.negSucc n)).toList = '-' :: Nat.toDigits 10 (n + 1) := by
      change ("-" ++ Nat.repr (n + 1)).toList = _
      rw [String.toList_append, Nat.repr, String.toList_ofList, String.toList_ofList]
      rfl
    rw [htext, List.cons_append, readInt?, readNat?_toDigits (n + 1) hrest]
    rfl

/-! ## Values -/

mutual

/-- Reads a value. Entering a value or an item takes one unit of fuel; a text has no more of them than
characters. -/
def readValue? : ℕ → List Char → Option (Json × List Char)
  | 0, _ => none
  | fuel + 1, cs =>
    match skipBlanks cs with
    | 't' :: 'r' :: 'u' :: 'e' :: rest => some (.bool true, rest)
    | 'f' :: 'a' :: 'l' :: 's' :: 'e' :: rest => some (.bool false, rest)
    | '\x22' :: rest =>
      (readString? (rest.length + 1) rest).map fun (text, rest) ↦ (.str (String.ofList text), rest)
    | '[' :: rest =>
      match skipBlanks rest with
      | ']' :: rest => some (.arr [], rest)
      | rest => (readItems? fuel rest).map fun (items, rest) ↦ (.arr items, rest)
    | '\x7b' :: rest =>
      match skipBlanks rest with
      | '\x7d' :: rest => some (.obj [], rest)
      | rest => (readFields? fuel rest).map fun (fields, rest) ↦ (.obj fields, rest)
    | cs => (readInt? cs).map fun (n, rest) ↦ (.int n, rest)

/-- Reads one or more items up to the closing bracket. -/
def readItems? : ℕ → List Char → Option (List Json × List Char)
  | 0, _ => none
  | fuel + 1, cs => do
    let (x, rest) ← readValue? fuel cs
    match skipBlanks rest with
    | ']' :: rest => return ([x], rest)
    | ',' :: rest =>
      let (xs, rest) ← readItems? fuel rest
      return (x :: xs, rest)
    | _ => none

/-- Reads one or more fields up to the closing brace. -/
def readFields? : ℕ → List Char → Option (List (String × Json) × List Char)
  | 0, _ => none
  | fuel + 1, cs =>
    match skipBlanks cs with
    | '\x22' :: rest => do
      let (name, rest) ← readString? (rest.length + 1) rest
      match skipBlanks rest with
      | ':' :: rest =>
        let (x, rest) ← readValue? fuel rest
        match skipBlanks rest with
        | '\x7d' :: rest => return ([(String.ofList name, x)], rest)
        | ',' :: rest =>
          let (fields, rest) ← readFields? fuel rest
          return ((String.ofList name, x) :: fields, rest)
        | _ => none
      | _ => none
    | _ => none

end

/-- The value that a text denotes. -/
def read? (text : String) : Option Json := do
  let (j, rest) ← readValue? (text.length + 1) text.toList
  if skipBlanks rest = [] then return j else none

/-! ## What is written reads back -/

theorem exists_cons_toString (n : ℤ) :
    ∃ c tail, (toString n).toList = c :: tail ∧ (c.isDigit = true ∨ c = '-') := by
  cases n with
  | ofNat n =>
    obtain ⟨c, tail, hdigits⟩ := List.exists_cons_of_ne_nil (Nat.toDigits_ne_nil (n := n) (b := 10))
    have htext : (toString (Int.ofNat n)).toList = Nat.toDigits 10 n := String.toList_ofList
    refine ⟨c, tail, htext.trans hdigits, Or.inl ?_⟩
    exact Nat.isDigit_of_mem_toDigits (by omega) (by omega) (hdigits ▸ List.mem_cons_self)
  | negSucc n =>
    refine ⟨'-', (Nat.repr (n + 1)).toList, ?_, Or.inr rfl⟩
    change ("-" ++ Nat.repr (n + 1)).toList = _
    rw [String.toList_append]
    rfl

/-- A written value starts with a token that closes no array. -/
theorem exists_cons_write (depth : ℕ) (j : Json) :
    ∃ c tail, write depth j = c :: tail ∧ isBlank c = false ∧ c ≠ ']' := by
  match j with
  | .bool true => exact ⟨'t', _, rfl, rfl, by decide⟩
  | .bool false => exact ⟨'f', _, rfl, rfl, by decide⟩
  | .int n =>
    obtain ⟨c, tail, htext, hc⟩ := exists_cons_toString n
    refine ⟨c, tail, by rw [write, htext], ?_, ?_⟩
    · rcases hc with hdigit | rfl
      · simp only [isBlank, Bool.or_eq_false_iff, beq_eq_false_iff_ne]
        refine ⟨⟨⟨?_, ?_⟩, ?_⟩, ?_⟩ <;> rintro rfl <;> simp at hdigit
      · rfl
    · rintro rfl
      simp at hc
  | .str s => exact ⟨'\x22', _, by rw [write, quote]; rfl, rfl, by decide⟩
  | .arr [] => exact ⟨'[', _, by rw [write], rfl, by decide⟩
  | .arr (x :: xs) => exact ⟨'[', _, by rw [write]; rfl, rfl, by decide⟩
  | .obj [] => exact ⟨'\x7b', _, by rw [write], rfl, by decide⟩
  | .obj ((name, x) :: fields) => exact ⟨'\x7b', _, by rw [write]; rfl, rfl, by decide⟩

/-- What is written for a value starts with a token, not with a blank. -/
theorem startsToken_write (depth : ℕ) (j : Json) (rest : List Char) :
    StartsToken (write depth j ++ rest) := by
  obtain ⟨c, tail, htext, hblank, -⟩ := exists_cons_write depth j
  exact ⟨c, tail ++ rest, by rw [htext, List.cons_append], hblank⟩

theorem startsToken_quote (s : String) (rest : List Char) : StartsToken (quote s ++ rest) :=
  ⟨'\x22', _, rfl, rfl⟩

/-- A line break ends a number. -/
theorem endsNumber_newline (depth : ℕ) (rest : List Char) : EndsNumber (newline depth ++ rest) := by
  intro c hc
  rw [← Option.some.inj hc]
  rfl

theorem endsNumber_comma (rest : List Char) : EndsNumber (',' :: rest) := by
  intro c hc
  rw [← Option.some.inj hc]
  rfl

theorem endsNumber_writeItems (depth depth' : ℕ) (xs : List Json) (rest : List Char) :
    EndsNumber (writeItems depth xs ++ (newline depth' ++ rest)) := by
  cases xs with
  | nil =>
    rw [writeItems, List.nil_append]
    exact endsNumber_newline depth' rest
  | cons x xs =>
    rw [writeItems]
    exact endsNumber_comma _

theorem endsNumber_writeFields (depth depth' : ℕ) (fields : List (String × Json)) (rest : List Char) :
    EndsNumber (writeFields depth fields ++ (newline depth' ++ rest)) := by
  cases fields with
  | nil =>
    rw [writeFields, List.nil_append]
    exact endsNumber_newline depth' rest
  | cons field fields =>
    rw [writeFields]
    exact endsNumber_comma _

/-- Reading a value skips the blanks in front of it. -/
theorem readValue?_append (fuel : ℕ) {blanks cs : List Char}
    (hblanks : ∀ c ∈ blanks, isBlank c = true) (h : StartsToken cs) :
    readValue? fuel (blanks ++ cs) = readValue? fuel cs := by
  cases fuel with
  | zero => rw [readValue?, readValue?]
  | succ fuel =>
    rw [readValue?, readValue?, skipBlanks_append hblanks h, skipBlanks_of_startsToken h]

theorem readItems?_newline (fuel depth : ℕ) {cs : List Char} (h : StartsToken cs) :
    readItems? fuel (newline depth ++ cs) = readItems? fuel cs := by
  cases fuel with
  | zero => rw [readItems?, readItems?]
  | succ fuel => rw [readItems?, readItems?, readValue?_append fuel (isBlank_of_mem_newline depth) h]

theorem readFields?_newline (fuel depth : ℕ) {cs : List Char} (h : StartsToken cs) :
    readFields? fuel (newline depth ++ cs) = readFields? fuel cs := by
  cases fuel with
  | zero => rw [readFields?, readFields?]
  | succ fuel =>
    rw [readFields?, readFields?, skipBlanks_newline depth h, skipBlanks_of_startsToken h]

theorem readValue?_toString (fuel : ℕ) (n : ℤ) {rest : List Char} (hrest : EndsNumber rest) :
    readValue? (fuel + 1) ((toString n).toList ++ rest) = some (.int n, rest) := by
  have hread := readInt?_toString n hrest
  have hstarts : StartsToken ((toString n).toList ++ rest) := startsToken_write 0 (.int n) rest
  obtain ⟨c, tail, htext, hc⟩ := exists_cons_toString n
  rw [readValue?, skipBlanks_of_startsToken hstarts]
  rw [htext, List.cons_append] at hread ⊢
  -- A digit or a sign is the start of no other value.
  split
  case h_6 => rw [hread]; rfl
  all_goals
    rename_i heq
    obtain ⟨rfl, -⟩ := List.cons.inj heq
    simp at hc

/-- A quoted string is read back with the fuel that its length gives. -/
theorem readString?_quote (s : String) (rest : List Char) :
    readString? ((s.toList.flatMap escapeChar ++ '\x22' :: rest).length + 1)
      (s.toList.flatMap escapeChar ++ '\x22' :: rest) = some (s.toList, rest) := by
  refine readString?_flatMap_escapeChar s.toList rest ?_
  have hlength : s.toList.length ≤ (s.toList.flatMap escapeChar).length := by
    induction s.toList with
    | nil => exact Nat.le_refl 0
    | cons c text ih =>
      have hpos : 0 < (escapeChar c).length := by
        rw [escapeChar]
        split_ifs <;> simp [controlEscape]
      rw [List.flatMap_cons, List.length_append, List.length_cons]
      omega
  rw [List.length_append]
  omega

/-- Reading fields starts with a name and the value behind its colon. -/
theorem readFields?_quote (fuel : ℕ) (name : String) {cs : List Char} (h : StartsToken cs) :
    readFields? (fuel + 1) (quote name ++ ':' :: ' ' :: cs) =
      (readValue? fuel cs).bind fun (x, rest) ↦
        match skipBlanks rest with
        | '\x7d' :: rest => some ([(name, x)], rest)
        | ',' :: rest =>
          (readFields? fuel rest).bind fun (fields, rest) ↦ some ((name, x) :: fields, rest)
        | _ => none := by
  have hread := readString?_quote name (':' :: ' ' :: cs)
  have hblanks : ∀ c ∈ [' '], isBlank c = true := by simp [isBlank]
  have hvalue : readValue? fuel (' ' :: cs) = readValue? fuel cs := readValue?_append fuel hblanks h
  rw [readFields?, skipBlanks_of_startsToken (startsToken_quote name _)]
  simp only [quote, List.cons_append, List.append_assoc, List.nil_append, hread,
    Option.bind_eq_bind, Option.bind_some, skipBlanks_of_startsToken ⟨':', _, rfl, rfl⟩, hvalue,
    String.ofList_toList]
  rfl

mutual

/-- A written value reads back, whatever follows that does not go on with a number. -/
theorem readValue?_write : ∀ (j : Json) (depth fuel : ℕ) (rest : List Char),
    (write depth j).length ≤ fuel → EndsNumber rest →
      readValue? fuel (write depth j ++ rest) = some (j, rest)
  | j, depth, 0, rest, hfuel, _ => by
    obtain ⟨c, tail, htext, -⟩ := exists_cons_write depth j
    simp [htext] at hfuel
  | .bool true, depth, fuel + 1, rest, _, _ => by
    rw [write, readValue?]
    rfl
  | .bool false, depth, fuel + 1, rest, _, _ => by
    rw [write, readValue?]
    rfl
  | .int n, depth, fuel + 1, rest, _, hrest => by
    rw [write]
    exact readValue?_toString fuel n hrest
  | .str s, depth, fuel + 1, rest, _, _ => by
    have hread := readString?_quote s rest
    rw [write, readValue?, skipBlanks_of_startsToken (startsToken_quote s rest)]
    simp only [quote, List.cons_append, List.append_assoc, List.nil_append, hread, Option.map_some,
      String.ofList_toList]
  | .arr [], depth, fuel + 1, rest, _, _ => by
    rw [write, readValue?]
    rfl
  | .arr (x :: xs), depth, fuel + 1, rest, hfuel, _ => by
    have hitems := readItems?_write x xs (depth + 1) depth fuel rest (by
      simp only [write, newline, List.length_append, List.length_cons] at hfuel
      omega)
    obtain ⟨c, tail, htext, hblank, hclose⟩ := exists_cons_write (depth + 1) x
    have hstarts := startsToken_write (depth + 1) x
      (writeItems (depth + 1) xs ++ (newline depth ++ ']' :: rest))
    simp only [write, List.cons_append, List.append_assoc, List.nil_append, readValue?]
    rw [skipBlanks_of_startsToken ⟨'[', _, rfl, rfl⟩]
    simp only [skipBlanks_newline _ hstarts]
    rw [htext, List.cons_append] at hitems ⊢
    split
    · rename_i heq
      exact absurd (List.cons.inj heq).1 hclose
    · rw [hitems]
      rfl
  | .obj [], depth, fuel + 1, rest, _, _ => by
    rw [write, readValue?]
    rfl
  | .obj ((name, x) :: fields), depth, fuel + 1, rest, hfuel, _ => by
    have hfields := readFields?_write name x fields (depth + 1) depth fuel rest (by
      simp only [write, newline, List.length_append, List.length_cons] at hfuel
      omega)
    have hstarts := startsToken_quote name
      (':' :: ' ' :: (write (depth + 1) x ++
        (writeFields (depth + 1) fields ++ (newline depth ++ '\x7d' :: rest))))
    simp only [write, List.cons_append, List.append_assoc, List.nil_append, readValue?]
    rw [skipBlanks_of_startsToken ⟨'\x7b', _, rfl, rfl⟩]
    simp only [skipBlanks_newline _ hstarts]
    exact congrArg (Option.map _) hfields
termination_by _ _ fuel => fuel

/-- The items of an array are read back one after the other. -/
theorem readItems?_write : ∀ (x : Json) (xs : List Json) (depth depth' fuel : ℕ) (rest : List Char),
    (write depth x).length + (writeItems depth xs).length + 1 ≤ fuel →
      readItems? fuel (write depth x ++ (writeItems depth xs ++ (newline depth' ++ ']' :: rest))) =
        some (x :: xs, rest)
  | x, [], depth, depth', 0, rest, hfuel => by omega
  | x, [], depth, depth', fuel + 1, rest, hfuel => by
    have hvalue := readValue?_write x depth fuel
      (writeItems depth [] ++ (newline depth' ++ ']' :: rest)) (by omega)
      (endsNumber_writeItems depth depth' [] _)
    rw [readItems?, hvalue]
    simp [writeItems, skipBlanks_newline depth' ⟨']', rest, rfl, rfl⟩]
  | x, y :: xs, depth, depth', 0, rest, hfuel => by omega
  | x, y :: xs, depth, depth', fuel + 1, rest, hfuel => by
    have hvalue := readValue?_write x depth fuel
      (writeItems depth (y :: xs) ++ (newline depth' ++ ']' :: rest)) (by omega)
      (endsNumber_writeItems depth depth' (y :: xs) _)
    have hitems := readItems?_write y xs depth depth' fuel rest (by
      simp only [writeItems, newline, List.length_append, List.length_cons] at hfuel
      omega)
    rw [← readItems?_newline fuel depth (startsToken_write depth y _)] at hitems
    rw [readItems?, hvalue]
    simp only [writeItems, List.cons_append, List.append_assoc,
      skipBlanks_of_startsToken ⟨',', _, rfl, rfl⟩, Option.bind_eq_bind, Option.bind_some, hitems]
    rfl
termination_by _ _ _ _ fuel => fuel

/-- The fields of an object are read back with their names and in order. -/
theorem readFields?_write : ∀ (name : String) (x : Json) (fields : List (String × Json))
    (depth depth' fuel : ℕ) (rest : List Char),
    (write depth x).length + (writeFields depth fields).length + 1 ≤ fuel →
      readFields? fuel (quote name ++ ':' :: ' ' :: (write depth x ++
        (writeFields depth fields ++ (newline depth' ++ '\x7d' :: rest)))) =
          some ((name, x) :: fields, rest)
  | name, x, [], depth, depth', 0, rest, hfuel => by omega
  | name, x, [], depth, depth', fuel + 1, rest, hfuel => by
    have hvalue := readValue?_write x depth fuel
      (writeFields depth [] ++ (newline depth' ++ '\x7d' :: rest)) (by omega)
      (endsNumber_writeFields depth depth' [] _)
    rw [readFields?_quote fuel name (startsToken_write depth x _), hvalue]
    simp [writeFields, skipBlanks_newline depth' ⟨'\x7d', rest, rfl, rfl⟩]
  | name, x, (other, y) :: fields, depth, depth', 0, rest, hfuel => by omega
  | name, x, (other, y) :: fields, depth, depth', fuel + 1, rest, hfuel => by
    have hvalue := readValue?_write x depth fuel
      (writeFields depth ((other, y) :: fields) ++ (newline depth' ++ '\x7d' :: rest)) (by omega)
      (endsNumber_writeFields depth depth' ((other, y) :: fields) _)
    have hfields := readFields?_write other y fields depth depth' fuel rest (by
      simp only [writeFields, newline, List.length_append, List.length_cons] at hfuel
      omega)
    rw [← readFields?_newline fuel depth (startsToken_quote other _)] at hfields
    rw [readFields?_quote fuel name (startsToken_write depth x _), hvalue]
    simp only [writeFields, List.cons_append, List.append_assoc, List.nil_append,
      skipBlanks_of_startsToken ⟨',', _, rfl, rfl⟩, Option.bind_some, hfields]
termination_by _ _ _ _ _ fuel => fuel

end

/-- Every value reads back from its text. -/
theorem read?_render (j : Json) : read? j.render = some j := by
  have hvalue := readValue?_write j 0 ((write 0 j).length + 1) [] (Nat.le_succ _)
    fun c hc ↦ by simp at hc
  rw [List.append_nil] at hvalue
  rw [read?, render, String.toList_ofList, String.length_ofList, hvalue]
  rfl

/-- Different values are rendered differently, since a rendering can be read back. -/
theorem render_injective : Function.Injective render := by
  intro j j' h
  have hread := read?_render j
  rw [h, read?_render j'] at hread
  exact (Option.some.inj hread).symm

end GoComplexity.Json
