import GoComplexity.Command.Run
import GoComplexity.Proofs.Lint.Subject
import Mathlib.Data.Multiset.Count

/-!
# Raising limits

Settings are compared bound by bound. A comment replaces a bound by the same number under all
settings or leaves it alone, so larger settings leave larger bounds in force, whatever the comments
say and however the two bounds of a metric stand to each other. A run with larger settings then
reports a part of what the run with smaller ones does, and no more errors.
-/

namespace GoComplexity

open Syntax

/-- No bound is above the corresponding one. -/
instance : LE Thresholds := ⟨fun t u ↦ t.warn ≤ u.warn ∧ t.fail ≤ u.fail⟩

/-- No bound of any metric is above the corresponding one. -/
instance : LE Settings := ⟨fun s s' ↦ ∀ m, s.get m ≤ s'.get m⟩

namespace Override

theorem applyPart_mono {t u : Thresholds} (h : t ≤ u) (part : List Char) :
    applyPart t part ≤ applyPart u part := by
  unfold applyPart
  cases readPart? part with
  | none => exact h
  | some entry =>
    obtain ⟨key, n⟩ := entry
    dsimp only
    split_ifs
    · exact ⟨le_refl n, h.2⟩
    · exact ⟨h.1, le_refl n⟩
    · exact h

/-- The parts of a directive, taken one after the other, keep the order of the bounds they started
from. -/
theorem foldl_applyPart_mono {t u : Thresholds} (h : t ≤ u) (parts : List (List Char)) :
    parts.foldl applyPart t ≤ parts.foldl applyPart u := by
  induction parts generalizing t u with
  | nil => exact h
  | cons part rest ih => exact ih (applyPart_mono h part)

/-- Larger defaults give larger bounds under the same comments. -/
theorem resolve_mono {t u : Thresholds} (h : t ≤ u) (doc : List String) (metric : String) :
    resolve doc metric t ≤ resolve doc metric u := by
  unfold resolve
  cases find? doc metric with
  | none => exact h
  | some directive => exact foldl_applyPart_mono h (Text.split ',' directive)

end Override

namespace Subject

variable {s s' : Settings}

/-- Directives keep the order of two settings, since they replace bounds by the same numbers. -/
theorem thresholds_mono (h : s ≤ s') (t : Subject) : t.thresholds s ≤ t.thresholds s' :=
  Override.resolve_mono (h t.metric) t.function.doc t.metric.name

/-- With looser settings fewer measurements are above the warning bound. -/
theorem ExceedsWarn.anti (h : s ≤ s') {t : Subject} (hwarn : t.ExceedsWarn s') :
    t.ExceedsWarn s :=
  lt_of_le_of_lt (t.thresholds_mono h).1 hwarn

theorem ExceedsFail.anti (h : s ≤ s') {t : Subject} (hfail : t.ExceedsFail s') :
    t.ExceedsFail s :=
  lt_of_le_of_lt (t.thresholds_mono h).2 hfail

/-- Two violations of one subject, the first under the larger settings `s'`. -/
structure Shared (subjects : List Subject) (s s' : Settings) (v' v : Violation) : Prop where
  reported : ∃ t ∈ subjects, t.Reports s' v' ∧ t.Reports s v
  value : v'.value = v.value
  line : v'.line = v.line
  column : v'.column = v.column
  error : v'.severity = .error → v.severity = .error

/-- A subject that is reported under both settings has the same place and value in both reports. -/
theorem Reports.shared (h : s ≤ s') {subjects : List Subject} {t : Subject} (ht : t ∈ subjects)
    {v' v : Violation} (hv' : t.Reports s' v') (hv : t.Reports s v) :
    Shared subjects s s' v' v where
  reported := ⟨t, ht, hv', hv⟩
  value := hv'.value.trans hv.value.symm
  line := hv'.line.trans hv.line.symm
  column := hv'.column.trans hv.column.symm
  error herror := hv.severity.mpr ((hv'.severity.mp herror).anti h)

/-- Every violation under the larger settings has one of its own under the smaller ones. -/
theorem exists_shared_violations (h : s ≤ s') {all : List Subject} (subjects : List Subject)
    (hall : subjects ⊆ all) :
    ∃ matched ≤ (subjects.filterMap (violation? s) : Multiset Violation),
      Multiset.Rel (Shared all s s') (subjects.filterMap (violation? s')) matched := by
  induction subjects with
  | nil => exact ⟨0, le_rfl, Multiset.Rel.zero⟩
  | cons t rest ih =>
    obtain ⟨ht, hrest⟩ := List.cons_subset.mp hall
    obtain ⟨matched, hle, hrel⟩ := ih hrest
    by_cases hwarn' : t.ExceedsWarn s'
    · obtain ⟨v', hv', hreports'⟩ := violation?_reports hwarn'
      obtain ⟨v, hv, hreports⟩ := violation?_reports (hwarn'.anti h)
      refine ⟨v ::ₘ matched, ?_, ?_⟩
      · rw [List.filterMap_cons_some hv, ← Multiset.cons_coe]
        exact Multiset.cons_le_cons v hle
      · rw [List.filterMap_cons_some hv', ← Multiset.cons_coe]
        exact Multiset.Rel.cons (hreports'.shared h ht hreports) hrel
    · rw [List.filterMap_cons_none (violation?_eq_none hwarn')]
      refine ⟨matched, hle.trans ?_, hrel⟩
      exact Multiset.coe_le.mpr ((List.sublist_cons_self t rest).filterMap _).subperm

/-- Related violations have no more errors on the left than on the right. -/
theorem countP_error_le_of_rel {subjects : List Subject} {violations' violations : Multiset Violation}
    (h : Multiset.Rel (Shared subjects s s') violations' violations) :
    violations'.countP (·.severity = .error) ≤ violations.countP (·.severity = .error) := by
  induction h with
  | zero => exact le_rfl
  | @cons v' v rest' rest hshared _ ih =>
    rw [Multiset.countP_cons, Multiset.countP_cons]
    by_cases herror : v'.severity = .error
    · rw [if_pos herror, if_pos (hshared.error herror)]
      exact Nat.succ_le_succ ih
    · rw [if_neg herror]
      exact Nat.le_add_right_of_le ih

end Subject

theorem Outcome.errors_eq_countP (o : Outcome) :
    o.errors = (o.violations : Multiset Violation).countP (·.severity = .error) := by
  rw [Multiset.coe_countP]
  rfl

/-- An outcome has errors exactly if their number is not zero. -/
theorem Outcome.hasErrors_iff (o : Outcome) : o.hasErrors = true ↔ 0 < o.errors := by
  unfold hasErrors errors count
  rw [List.countP_pos_iff, List.any_eq_true]

/-- Only errors make a run fail; warnings do not. -/
theorem Command.exitCode_report (color : Bool) (o : Options) (r : LintResult) :
    (report color o r).exitCode = if r.outcome.hasErrors then 1 else 0 := by
  unfold report
  cases o.format <;> rfl

/-- Under larger settings a run reports a part of what it does under smaller ones, with the same
values and positions, and as an error only what is an error there. It has no more violations and
errors, and fails only if the other does. -/
theorem runPackages_anti {s s' : Settings} (h : s ≤ s') (packages : List Package) :
    (∃ matched ≤ ((runPackages s packages).violations : Multiset Violation),
      Multiset.Rel (Subject.Shared (Subject.ofPackages packages) s s')
        (runPackages s' packages).violations matched) ∧
    (runPackages s' packages).violations.length ≤ (runPackages s packages).violations.length ∧
    (runPackages s' packages).errors ≤ (runPackages s packages).errors ∧
    ((runPackages s' packages).hasErrors → (runPackages s packages).hasErrors) ∧
    ∀ color o, (Command.report color o ⟨s', packages, runPackages s' packages⟩).exitCode ≤
      (Command.report color o ⟨s, packages, runPackages s packages⟩).exitCode := by
  obtain ⟨matched, hle, hrel⟩ := Subject.exists_shared_violations h (Subject.ofPackages packages)
    (List.Subset.refl _)
  rw [← Subject.violations_runPackages] at hle
  rw [← Subject.violations_runPackages] at hrel
  have herrors : (runPackages s' packages).errors ≤ (runPackages s packages).errors := by
    rw [Outcome.errors_eq_countP, Outcome.errors_eq_countP]
    exact (Subject.countP_error_le_of_rel hrel).trans (Multiset.countP_le_of_le _ hle)
  have hhas : (runPackages s' packages).hasErrors → (runPackages s packages).hasErrors := by
    rw [Outcome.hasErrors_iff, Outcome.hasErrors_iff]
    exact fun hpos ↦ hpos.trans_le herrors
  refine ⟨⟨matched, hle, hrel⟩, ?_, herrors, hhas, ?_⟩
  · have hcard := Multiset.card_le_card hle
    rw [← Multiset.card_eq_card_of_rel hrel] at hcard
    exact hcard
  · intro color o
    rw [Command.exitCode_report, Command.exitCode_report]
    split_ifs with hlax hstrict
    · exact le_rfl
    · exact absurd (hhas hlax) hstrict
    · exact Nat.zero_le 1
    · exact le_rfl

/-- A package with a function of seven parameters under a comment that sets `warn` above `fail`. -/
def invertedPackage : Package :=
  { dir := ⟨[]⟩
    name := "p"
    path := "example.com/p"
    files :=
      [{ path := "a.go"
         package := "p"
         imports := []
         types := []
         vars := []
         functions :=
          [{ name := "f"
             receiver := none
             pos := ⟨4, 1, 50⟩
             params := [⟨["a", "b", "c", "d", "e", "f", "g"], "int", false⟩]
             body := some (.mk ⟨4, 30, 79⟩ [])
             doc := ["//complexity:params:fail=3"]
             bindings := [] }] }] }

/-- With the default bound `warn` of four the function is an error, with one of seven it is not
reported. -/
theorem runPackages_anti_invertedPackage :
    let s := Settings.defaults
    let s' := Settings.defaults.set .params ⟨7, 9⟩
    s ≤ s' ∧ (runPackages s [invertedPackage]).errors = 1 ∧
      (runPackages s' [invertedPackage]).errors = 0 ∧
      (runPackages s' [invertedPackage]).errors ≤ (runPackages s [invertedPackage]).errors := by
  intro s s'
  have h : s ≤ s' := by
    intro m
    cases m <;> exact ⟨by decide, by decide⟩
  exact ⟨h, by decide +kernel, by decide +kernel, (runPackages_anti h [invertedPackage]).2.2.1⟩

end GoComplexity
