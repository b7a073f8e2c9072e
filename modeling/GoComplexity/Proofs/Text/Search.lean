import GoComplexity.Text.Split
import Mathlib.Data.List.TakeDrop
import Mathlib.Tactic.SplitIfs

/-!
# Searching with expressions

An expression is a sequence of parts. A repetition takes as many characters as it can and gives some back
only if what follows does not match otherwise, so the ways to match at one place come in an order of
preference. A search finds the first place with a match and there the preferred way. Where a part cannot
start with what a repetition before it takes, the repetition takes all or nothing.
-/

namespace GoComplexity.Text.Search

/-- How many characters a part takes. -/
inductive Count where
  | one
  | optional
  | many
  /-- Also none. -/
  | any

inductive Part where
  /-- The start of the text or of a line. -/
  | lineStart
  | take (count : Count) (p : Char → Bool)
  /-- Takes characters that the search reports. -/
  | group (count : Count) (p : Char → Bool)

/-- The ways to take one or more characters of a class, the most first, with what they leave. -/
def runs (p : Char → Bool) : List Char → List (List Char × List Char)
  | [] => []
  | c :: cs => if p c then (runs p cs).map (fun cut ↦ (c :: cut.1, cut.2)) ++ [([c], cs)] else []

def single (p : Char → Bool) : List Char → List (List Char × List Char)
  | [] => []
  | c :: cs => if p c then [([c], cs)] else []

/-- The ways to take characters of a class, in order of preference. -/
def Count.ways (p : Char → Bool) (cs : List Char) : Count → List (List Char × List Char)
  | .one => single p cs
  | .optional => single p cs ++ [([], cs)]
  | .many => runs p cs
  | .any => runs p cs ++ [([], cs)]

/-- Whether the place behind `taken` is at the start of a line, where `start` tells of the place before. -/
def startsLine (start : Bool) (taken : List Char) : Bool :=
  (taken.getLast?.map (· == '\n')).getD start

/-- The groups of each match at a place, in order of preference. -/
def matchesAt : List Part → Bool → List Char → List (List (List Char))
  | [], _, _ => [[]]
  | .lineStart :: parts, start, cs => if start then matchesAt parts start cs else []
  | .take count p :: parts, start, cs =>
    (count.ways p cs).flatMap fun cut ↦ matchesAt parts (startsLine start cut.1) cut.2
  | .group count p :: parts, start, cs =>
    (count.ways p cs).flatMap fun cut ↦ (matchesAt parts (startsLine start cut.1) cut.2).map (cut.1 :: ·)

/-- The groups of the preferred match at the first place that has one. -/
def first? (parts : List Part) : Bool → List Char → Option (List (List Char))
  | start, [] => (matchesAt parts start []).head?
  | start, c :: cs => (matchesAt parts start (c :: cs)).head?.or (first? parts (c == '\n') cs)

/-- The parts that spell a word. -/
def word (cs : List Char) : List Part := cs.map fun c ↦ .take .one (· == c)

/-! ## Repetitions -/

variable {p : Char → Bool} {parts : List Part}

theorem exists_cons_of_takeWhile {cs : List Char} (h : cs.takeWhile p ≠ []) :
    ∃ c rest, cs = c :: rest ∧ p c = true := by
  cases cs with
  | nil => simp at h
  | cons c rest =>
    refine ⟨c, rest, rfl, ?_⟩
    by_contra hc
    simp [hc] at h

theorem dropWhile_of_takeWhile {cs : List Char} (h : cs.takeWhile p = []) : cs.dropWhile p = cs := by
  have hwhole := List.takeWhile_append_dropWhile (p := p) (l := cs)
  rwa [h, List.nil_append] at hwhole

theorem runs_eq_nil {cs : List Char} (h : cs.takeWhile p = []) : runs p cs = [] := by
  cases cs with
  | nil => rfl
  | cons c cs =>
    apply if_neg
    intro hc
    simp [hc] at h

/-- The longest run comes first, and the others leave something to take. -/
theorem exists_runs_eq {cs : List Char} (h : cs.takeWhile p ≠ []) :
    ∃ shorter, runs p cs = (cs.takeWhile p, cs.dropWhile p) :: shorter ∧
      ∀ cut ∈ shorter, ∃ c rest, cut.2 = c :: rest ∧ p c = true := by
  induction cs with
  | nil => simp at h
  | cons c cs ih =>
    obtain ⟨_, _, heq, hc⟩ := exists_cons_of_takeWhile h
    obtain ⟨rfl, rfl⟩ := List.cons.inj heq
    rw [runs, if_pos hc, List.takeWhile_cons_of_pos hc, List.dropWhile_cons_of_pos hc]
    by_cases hcs : cs.takeWhile p = []
    · refine ⟨[], ?_, by simp⟩
      rw [runs_eq_nil hcs, hcs, dropWhile_of_takeWhile hcs]
      rfl
    · obtain ⟨shorter, hruns, hshorter⟩ := ih hcs
      refine ⟨shorter.map (fun cut ↦ (c :: cut.1, cut.2)) ++ [([c], cs)], by rw [hruns]; rfl, ?_⟩
      intro cut hcut
      rcases List.mem_append.mp hcut with hcut | hcut
      · obtain ⟨longer, hlonger, rfl⟩ := List.mem_map.mp hcut
        exact hshorter longer hlonger
      · rw [List.mem_singleton.mp hcut]
        exact exists_cons_of_takeWhile hcs

/-- Whether the parts match nowhere in front of a character of the class. -/
def Avoids (parts : List Part) (p : Char → Bool) : Prop :=
  ∀ start c cs, p c = true → matchesAt parts start (c :: cs) = []

/-- A run of characters that the rest cannot use is taken as a whole. -/
theorem matchesAt_take_many (h : Avoids parts p) (start : Bool) (cs : List Char) :
    matchesAt (.take .many p :: parts) start cs =
      if cs.takeWhile p = [] then []
      else matchesAt parts (startsLine start (cs.takeWhile p)) (cs.dropWhile p) := by
  rw [matchesAt, Count.ways]
  split_ifs with hcs
  · rw [runs_eq_nil hcs]
    rfl
  · obtain ⟨shorter, hruns, hshorter⟩ := exists_runs_eq hcs
    have hnone : shorter.flatMap (fun cut ↦ matchesAt parts (startsLine start cut.1) cut.2) = [] := by
      rw [List.flatMap_eq_nil_iff]
      intro cut hcut
      obtain ⟨c, rest, hrest, hc⟩ := hshorter cut hcut
      rw [hrest, h _ c rest hc]
    rw [hruns, List.flatMap_cons, hnone, List.append_nil]

/-- The same for a run that may be empty. -/
theorem matchesAt_take_any (h : Avoids parts p) (start : Bool) (cs : List Char) :
    matchesAt (.take .any p :: parts) start cs =
      matchesAt parts (startsLine start (cs.takeWhile p)) (cs.dropWhile p) := by
  have hany : matchesAt (.take .any p :: parts) start cs =
      matchesAt (.take .many p :: parts) start cs ++ matchesAt parts start cs := by
    rw [matchesAt, matchesAt, Count.ways, Count.ways, List.flatMap_append, List.flatMap_singleton]
    rfl
  rw [hany, matchesAt_take_many h]
  split_ifs with hcs
  · rw [hcs, dropWhile_of_takeWhile hcs]
    rfl
  · obtain ⟨c, rest, rfl, hc⟩ := exists_cons_of_takeWhile hcs
    rw [h start c rest hc, List.append_nil]

theorem matchesAt_take_one (start : Bool) (c : Char) (cs : List Char) :
    matchesAt (.take .one p :: parts) start (c :: cs) =
      if p c then matchesAt parts (c == '\n') cs else [] := by
  rw [matchesAt, Count.ways, single]
  split_ifs with hc
  · rw [List.flatMap_singleton]
    rfl
  · rfl

theorem avoids_take_one {q : Char → Bool} (h : ∀ c, p c = true → q c = false) :
    Avoids (.take .one q :: parts) p := by
  intro start c cs hc
  rw [matchesAt_take_one, h c hc]
  rfl

theorem avoids_group_many {q : Char → Bool} (h : ∀ c, p c = true → q c = false) :
    Avoids (.group .many q :: parts) p := by
  intro start c cs hc
  rw [matchesAt, Count.ways, runs, h c hc]
  rfl

/-- An optional character is first taken and then left out. -/
theorem matchesAt_take_optional (start : Bool) (cs : List Char) :
    matchesAt (.take .optional p :: parts) start cs =
      matchesAt (.take .one p :: parts) start cs ++ matchesAt parts start cs := by
  rw [matchesAt, matchesAt, Count.ways, Count.ways, List.flatMap_append, List.flatMap_singleton]
  rfl

theorem avoids_take_optional {q : Char → Bool} (h : ∀ c, p c = true → q c = false)
    (hparts : Avoids parts p) : Avoids (.take .optional q :: parts) p := by
  intro start c cs hc
  rw [matchesAt_take_optional, avoids_take_one h start c cs hc, hparts start c cs hc, List.append_nil]

/-- The text without one character of the class in front. -/
def skip (p : Char → Bool) (cs : List Char) : List Char := if cs.head?.any p then cs.tail else cs

/-- A character that may be left out is taken where what follows cannot start with it. -/
theorem exists_matchesAt_take_optional (h : Avoids parts p) (start : Bool) (cs : List Char) :
    ∃ start', matchesAt (.take .optional p :: parts) start cs =
      matchesAt parts start' (skip p cs) := by
  rw [matchesAt_take_optional]
  cases cs with
  | nil => exact ⟨start, rfl⟩
  | cons c cs =>
    rw [matchesAt_take_one]
    by_cases hc : p c = true
    · refine ⟨c == '\n', ?_⟩
      rw [h start c cs hc, List.append_nil]
      simp [skip, hc]
    · exact ⟨start, by simp [skip, hc]⟩

/-- A word is matched by itself only. -/
theorem exists_matchesAt_word (parts : List Part) (letters : List Char) (start : Bool)
    (cs : List Char) :
    ∃ start', matchesAt (word letters ++ parts) start cs =
      ((after? letters cs).map (matchesAt parts start')).getD [] := by
  induction letters generalizing start cs with
  | nil => exact ⟨start, rfl⟩
  | cons l letters ih =>
    cases cs with
    | nil => exact ⟨start, rfl⟩
    | cons c cs =>
      obtain ⟨start', hrest⟩ := ih (c == '\n') cs
      refine ⟨start', ?_⟩
      have hstep : matchesAt (word (l :: letters) ++ parts) start (c :: cs) =
          if (c == l) = true then matchesAt (word letters ++ parts) (c == '\n') cs else [] :=
        matchesAt_take_one start c cs
      rw [hstep, hrest, after?]
      by_cases hl : l = c
      · simp [hl]
      · simp [hl, Ne.symm hl]

/-- The longest group is preferred, if nothing behind it has to match. -/
theorem head?_matchesAt_group_many (q : Char → Bool) (start : Bool) (cs : List Char) :
    (matchesAt [.group .many p, .take .optional q] start cs).head? =
      if cs.takeWhile p = [] then none else some [cs.takeWhile p] := by
  have htail (start : Bool) (cs : List Char) :
      (matchesAt [.take .optional q] start cs).head? = some [] := by
    rw [matchesAt_take_optional]
    cases cs with
    | nil => rfl
    | cons c cs =>
      rw [matchesAt_take_one]
      split_ifs <;> rfl
  rw [matchesAt, Count.ways]
  split_ifs with hcs
  · rw [runs_eq_nil hcs]
    rfl
  · obtain ⟨shorter, hruns, -⟩ := exists_runs_eq hcs
    rw [hruns, List.flatMap_cons, List.head?_append, List.head?_map, htail]
    rfl

end GoComplexity.Text.Search
