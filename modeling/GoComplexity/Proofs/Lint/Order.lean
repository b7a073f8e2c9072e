import GoComplexity.Lint.Outcome
import Mathlib

/-!
# Report order

Violations are compared by file, line, column and metric, one after the other. The comparison is the
lexicographic order of these four, so sorting an outcome leaves an ordered list of the same
violations. Where no two violations agree in all four, there is only one such list.
-/

namespace GoComplexity

namespace Violation

/-- What a report is ordered by: file, line, column and metric. -/
def key (v : Violation) : String ×ₗ ℕ ×ₗ ℕ ×ₗ ℕ :=
  toLex (v.file, toLex (v.line, toLex (v.column, v.rule.rank)))

/-- The order of the report compares file, line, column and metric, in this order. -/
theorem le_iff_key_le (a b : Violation) : a.le b = true ↔ a.key ≤ b.key := by
  simp only [key, Prod.Lex.toLex_le_toLex]
  unfold le
  split_ifs with hfile hline hcolumn
  · simp [hfile]
  · simp [not_not.mp hfile, hline]
  · simp [not_not.mp hfile, not_not.mp hline, hcolumn]
  · simp [not_not.mp hfile, not_not.mp hline, not_not.mp hcolumn]

end Violation

namespace Outcome

/-- Sorting loses no violation and adds none. -/
theorem sort_perm (o : Outcome) : o.sort.violations.Perm o.violations :=
  List.mergeSort_perm _ _

/-- After sorting the keys are in order. -/
theorem pairwise_sort (o : Outcome) :
    o.sort.violations.Pairwise fun a b ↦ a.key ≤ b.key := by
  have htrans (a b c : Violation) (hab : a.le b) (hbc : b.le c) : a.le c := by
    rw [Violation.le_iff_key_le] at *
    exact hab.trans hbc
  have htotal (a b : Violation) : a.le b || b.le a := by
    rw [Bool.or_eq_true, Violation.le_iff_key_le, Violation.le_iff_key_le]
    exact le_total a.key b.key
  refine (List.pairwise_mergeSort htrans htotal o.violations).imp ?_
  intro a b hab
  exact (Violation.le_iff_key_le a b).mp hab

/-- With distinct keys, the sorted form depends on the collection of violations only. -/
theorem sort_eq_of_perm {a b : Outcome} (hviolations : a.violations.Perm b.violations)
    (hscanned : a.scanned = b.scanned) (hfunctions : a.functions = b.functions)
    (hkeys : (a.violations.map Violation.key).Nodup) : a.sort = b.sort := by
  have hperm : a.sort.violations.Perm b.sort.violations :=
    a.sort_perm.trans (hviolations.trans b.sort_perm.symm)
  have hlist : a.sort.violations = b.sort.violations := by
    refine List.Perm.eq_of_pairwise ?_ a.pairwise_sort b.pairwise_sort hperm
    intro v w hv hw hvw hwv
    have hw' : w ∈ a.violations := a.sort_perm.mem_iff.mp (hperm.mem_iff.mpr hw)
    exact List.inj_on_of_nodup_map hkeys (a.sort_perm.mem_iff.mp hv) hw' (le_antisymm hvw hwv)
  calc
    a.sort = ⟨a.sort.violations, a.scanned, a.functions⟩ := rfl
    _ = ⟨b.sort.violations, b.scanned, b.functions⟩ := by rw [hlist, hscanned, hfunctions]
    _ = b.sort := rfl

/-! ## Merging -/

theorem empty_merge (o : Outcome) : empty.merge o = o := by
  simp [empty, merge]

/-- Merging a list puts the violations one after the other and adds up the counts. -/
theorem foldl_merge_eq (o : Outcome) (outcomes : List Outcome) :
    outcomes.foldl merge o =
      ⟨o.violations ++ outcomes.flatMap violations, o.scanned + (outcomes.map scanned).sum,
        o.functions + (outcomes.map functions).sum⟩ := by
  induction outcomes generalizing o with
  | nil => simp
  | cons next rest ih =>
    rw [List.foldl_cons, ih]
    simp [merge, Nat.add_assoc]

/-- A merge of many outcomes can start anywhere: what is merged first only stands in front. -/
theorem foldl_merge (o : Outcome) (outcomes : List Outcome) :
    outcomes.foldl merge o = o.merge (outcomes.foldl merge empty) := by
  rw [foldl_merge_eq, foldl_merge_eq]
  simp [merge, empty]

end Outcome

end GoComplexity
