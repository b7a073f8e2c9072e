import GoComplexity.Workspace.Load
import Mathlib

/-!
# The order of paths and packages

Paths are compared segment by segment and packages by directory and name, so both orders are the
lexicographic orders of keys that tell them apart. Sorting by such an order and dropping repetitions
leaves a strictly increasing list. It holds what the list held before, and no other such list does, so
neither the order nor the number of occurrences in the first list matters.
-/

namespace GoComplexity

/-! ## Sorting without repetitions -/

section Distinct

variable {α κ : Type} [BEq α] [LinearOrder κ]

theorem eraseReps_loop_eq (a : α) (l reps : List α) :
    List.eraseRepsBy.loop (· == ·) a l reps = reps.reverse ++ (a :: l).eraseReps := by
  change _ = reps.reverse ++ List.eraseRepsBy.loop (· == ·) a l []
  induction l generalizing a reps with
  | nil => simp [List.eraseRepsBy.loop]
  | cons b l ih =>
    simp only [List.eraseRepsBy.loop]
    split
    · exact ih a reps
    · rw [ih b (a :: reps), ih b [a]]
      simp

variable [LawfulBEq α]

theorem eraseReps_cons_cons (a b : α) (l : List α) :
    (a :: b :: l).eraseReps = if a == b then (b :: l).eraseReps else a :: (b :: l).eraseReps := by
  change List.eraseRepsBy.loop (· == ·) a (b :: l) [] = _
  simp only [List.eraseRepsBy.loop]
  split
  next hab =>
    obtain rfl := eq_of_beq hab
    rw [if_pos hab]
    rfl
  next hab =>
    rw [hab]
    exact eraseReps_loop_eq b l [a]

theorem mem_eraseReps {x : α} {l : List α} : x ∈ l.eraseReps ↔ x ∈ l := by
  induction l with
  | nil => rfl
  | cons a l ih =>
    cases l with
    | nil => rfl
    | cons b l =>
      rw [eraseReps_cons_cons]
      split_ifs with hab
      · rw [ih, eq_of_beq hab]
        simp
      · rw [List.mem_cons, ih, List.mem_cons (b := a)]

variable {key : α → κ} {le : α → α → Bool} (hle : ∀ a b, le a b = true ↔ key a ≤ key b)

/-- In a sorted list equal members stand together, so that dropping repetitions leaves increasing keys.
-/
theorem pairwise_lt_eraseReps (hkey : Function.Injective key) {l : List α}
    (h : l.Pairwise fun a b ↦ key a ≤ key b) : l.eraseReps.Pairwise fun a b ↦ key a < key b := by
  induction l with
  | nil => exact List.Pairwise.nil
  | cons a l ih =>
    obtain ⟨hfirst, hrest⟩ := List.pairwise_cons.mp h
    cases l with
    | nil => exact List.pairwise_singleton _ _
    | cons b l =>
      rw [eraseReps_cons_cons]
      split_ifs with hab
      · exact ih hrest
      · refine List.pairwise_cons.mpr ⟨fun x hx ↦ ?_, ih hrest⟩
        have hfirst_lt : key a < key b :=
          lt_of_le_of_ne (hfirst b List.mem_cons_self) fun heq ↦ hab (beq_iff_eq.mpr (hkey heq))
        apply hfirst_lt.trans_le
        rcases List.mem_cons.mp (mem_eraseReps.mp hx) with rfl | hx
        · exact le_rfl
        · exact (List.pairwise_cons.mp hrest).1 x hx

/-- Sorting and dropping repetitions keep the members. -/
theorem mem_eraseReps_mergeSort {x : α} {l : List α} :
    x ∈ (l.mergeSort le).eraseReps ↔ x ∈ l := by
  rw [mem_eraseReps, List.mem_mergeSort]

include hle

theorem pairwise_lt_eraseReps_mergeSort (hkey : Function.Injective key) (l : List α) :
    (l.mergeSort le).eraseReps.Pairwise fun a b ↦ key a < key b := by
  apply pairwise_lt_eraseReps hkey
  have htrans (a b c : α) (hab : le a b) (hbc : le b c) : le a c := by
    rw [hle] at *
    exact hab.trans hbc
  have htotal (a b : α) : le a b || le b a := by
    rw [Bool.or_eq_true, hle, hle]
    exact le_total (key a) (key b)
  apply (List.pairwise_mergeSort htrans htotal l).imp
  intro a b hab
  exact (hle a b).mp hab

theorem nodup_eraseReps_mergeSort (hkey : Function.Injective key) (l : List α) :
    (l.mergeSort le).eraseReps.Nodup := by
  apply (pairwise_lt_eraseReps_mergeSort hle hkey l).imp
  rintro a _ hlt rfl
  exact lt_irrefl _ hlt

/-- Sorting without repetitions gives the increasing list with the same members. -/
theorem eraseReps_mergeSort_eq (hkey : Function.Injective key) {l l' : List α}
    (h : ∀ x, x ∈ l ↔ x ∈ l') (hsorted : l'.Pairwise fun a b ↦ key a < key b) :
    (l.mergeSort le).eraseReps = l' := by
  have hirrefl : Std.Irrefl fun a b : α ↦ key a < key b := ⟨fun a ↦ lt_irrefl (key a)⟩
  have hasymm : Std.Antisymm fun a b : α ↦ key a < key b := ⟨fun a b hab hba ↦ absurd hba hab.asymm⟩
  apply (pairwise_lt_eraseReps_mergeSort hle hkey l).eq_of_mem_iff hsorted
  intro x
  rw [mem_eraseReps_mergeSort, h]

end Distinct

/-! ## Paths -/

/-- What segments are ordered by: a step up is below every name. -/
def Segment.key : Segment → WithBot String
  | .up => ⊥
  | .name text => text

theorem Segment.key_injective : Function.Injective key := by
  intro a b h
  cases a <;> cases b <;> simp_all [key]

theorem Segment.lt_iff_key_lt (a b : Segment) : a.lt b = true ↔ a.key < b.key := by
  cases a <;> cases b <;> simp [key, lt]

namespace Path

/-- What paths are ordered by. -/
def key (p : Path) : List (WithBot String) := p.segments.map Segment.key

theorem key_injective : Function.Injective key := by
  rintro ⟨as⟩ ⟨bs⟩ h
  obtain rfl := List.map_injective_iff.mpr Segment.key_injective h
  rfl

/-- Paths are compared segment by segment. -/
theorem segmentsLt_iff (as bs : List Segment) :
    segmentsLt as bs = true ↔ as.map Segment.key < bs.map Segment.key := by
  fun_induction segmentsLt as bs with
  | case1 as => simp
  | case2 b bs => simp
  | case3 a as b bs ih =>
    rw [Bool.or_eq_true, Bool.and_eq_true, beq_iff_eq, ih, Segment.lt_iff_key_lt, List.map_cons,
      List.map_cons, List.cons_lt_cons_iff, Segment.key_injective.eq_iff]

theorem le_iff_key_le (p q : Path) : p.le q = true ↔ p.key ≤ q.key := by
  unfold le lt
  rw [Bool.not_eq_true', ← Bool.not_eq_true, segmentsLt_iff]
  exact not_lt

theorem lt_iff_key_lt (p q : Path) : p.lt q = true ↔ p.key < q.key :=
  segmentsLt_iff p.segments q.segments

/-- Putting paths in order keeps the set of paths. -/
theorem mem_inOrder {p : Path} {paths : List Path} : p ∈ inOrder paths ↔ p ∈ paths :=
  mem_eraseReps_mergeSort

/-- Paths in order have increasing keys, so none comes twice. -/
theorem pairwise_inOrder (paths : List Path) : (inOrder paths).Pairwise fun p q ↦ p.key < q.key :=
  pairwise_lt_eraseReps_mergeSort le_iff_key_le key_injective paths

theorem nodup_inOrder (paths : List Path) : (inOrder paths).Nodup :=
  nodup_eraseReps_mergeSort le_iff_key_le key_injective paths

/-- The order of paths depends on their set alone. -/
theorem inOrder_eq {paths paths' : List Path} (h : ∀ p, p ∈ paths ↔ p ∈ paths')
    (hsorted : paths'.Pairwise fun p q ↦ p.key < q.key) : inOrder paths = paths' :=
  eraseReps_mergeSort_eq le_iff_key_le key_injective h hsorted

/-- Within one directory paths go by the name at their end. -/
theorem strictMono_key_concat (dir : List Segment) :
    StrictMono fun name : String ↦ key ⟨dir ++ [.name name]⟩ := by
  intro a b hab
  simp only [key, List.map_append]
  apply List.append_left_lt
  exact List.Lex.rel (WithBot.coe_lt_coe.mpr hab)

end Path

/-! ## Packages -/

/-- What packages are ordered by: the directory, then the name. -/
def Package.keyOf (group : Path × String) : List (WithBot String) ×ₗ String :=
  toLex (group.1.key, group.2)

def Package.key (p : Package) : List (WithBot String) ×ₗ String := keyOf (p.dir, p.name)

theorem Package.keyOf_injective : Function.Injective keyOf := by
  rintro ⟨dir, name⟩ ⟨dir', name'⟩ h
  obtain ⟨hdir, hname⟩ := Prod.mk.inj (toLex_inj.mp h)
  exact Prod.ext (Path.key_injective hdir) hname

theorem Package.keyLe_iff_keyOf_le (a b : Path × String) :
    keyLe a b = true ↔ keyOf a ≤ keyOf b := by
  unfold keyLe keyOf
  rw [Prod.Lex.toLex_le_toLex]
  split_ifs with hdir
  · rw [Bool.not_eq_true', decide_eq_false_iff_not, hdir]
    exact ⟨fun h ↦ Or.inr ⟨rfl, not_lt.mp h⟩, fun h ↦ not_lt.mpr (h.resolve_left (lt_irrefl _)).2⟩
  · have hne : a.1.key ≠ b.1.key := fun heq ↦ hdir (Path.key_injective heq)
    rw [Path.le_iff_key_le]
    simp [hne, le_iff_lt_or_eq]

/-- The order of packages, by directory and then by name. -/
def Package.Before (p q : Package) : Prop := p.dir.lt q.dir = true ∨ p.dir = q.dir ∧ p.name < q.name

theorem Package.before_iff_key_lt (p q : Package) : p.Before q ↔ p.key < q.key := by
  unfold Before key keyOf
  rw [Prod.Lex.toLex_lt_toLex, Path.lt_iff_key_lt, Path.key_injective.eq_iff]

end GoComplexity
