import GoComplexity.Lint.Run
import GoComplexity.Proofs.Lint.Order
import Mathlib

/-!
# What a run reports

A subject is one metric of one function declaration with a body. A run reports exactly the subjects
whose value exceeds the warning bound in force for them, each once and with what was measured, in
report order. The subjects are listed from the declarations alone, without the zones and findings
that the run goes through.
-/

namespace GoComplexity

open Syntax

/-- One metric of one function declaration with a body, in the view of the file that declares it. -/
structure Subject where
  view : FileView
  file : SourceFile
  function : FunctionDecl
  body : Block
  declared : function.body = some body
  metric : Metric

namespace Subject

/-- Every metric of a function, if it has a body. -/
def ofFunction (view : FileView) (file : SourceFile) (f : FunctionDecl) : List Subject :=
  match h : f.body with
  | none => []
  | some body => Metric.all.map fun m ↦ ⟨view, file, f, body, h, m⟩

/-- Every metric of every declaration of a file. -/
def ofFile (scope : Scope) (file : SourceFile) : List Subject :=
  file.functions.flatMap (ofFunction (FileView.ofFile scope file) file)

/-- Every metric of every declaration in the packages. -/
def ofPackages (packages : List Package) : List Subject :=
  packages.flatMap fun p ↦ p.files.flatMap (ofFile (Scope.ofFiles p.path p.files))

/-- The value and where it is reported. -/
def measured (t : Subject) : ℕ × Position :=
  t.metric.measureBody t.function t.body (t.view.resolve t.function.bindings)

/-- The value as the bounds see it, which have 64 bits with sign. -/
def level (t : Subject) : ℤ := min (t.measured.1 : ℤ) (2 ^ 63 - 1)

/-- The bounds in force: those of the settings under the comments of the function. -/
def thresholds (settings : Settings) (t : Subject) : Thresholds :=
  Override.resolve t.function.doc t.metric.name (settings.get t.metric)

def ExceedsWarn (settings : Settings) (t : Subject) : Prop :=
  (t.thresholds settings).warn < t.level

def ExceedsFail (settings : Settings) (t : Subject) : Prop :=
  (t.thresholds settings).fail < t.level

instance (settings : Settings) : DecidablePred (ExceedsWarn settings) :=
  fun _ ↦ inferInstanceAs (Decidable (_ < _))

/-- What a violation says when it reports the subject. -/
structure Reports (settings : Settings) (t : Subject) (v : Violation) : Prop where
  rule : v.rule = t.metric
  file : v.file = t.file.path
  line : v.line = t.measured.2.line
  column : v.column = t.measured.2.column
  function : v.function = t.function.displayName
  value : v.value = t.measured.1
  thresholds : v.thresholds = t.thresholds settings
  severity : v.severity = .error ↔ t.ExceedsFail settings
  message : v.message = "function " ++ v.function ++ " has " ++ v.rule.measured v.value ++
    " (warn: >" ++ toString v.thresholds.warn ++ ", fail: >" ++ toString v.thresholds.fail ++
    ") [" ++ v.severity.name ++ "]"

/-- The violation of a subject, if its value is outside the green zone. -/
def violation? (settings : Settings) (t : Subject) : Option Violation :=
  (Finding.of? settings t.function t.metric t.measured.1 t.measured.2).map
    (Violation.ofFinding t.file.path)

/-- The violation that a zone gives rise to. -/
theorem violation?_eq_map (settings : Settings) (t : Subject) {zone : Zone}
    (hzone : (t.thresholds settings).classify t.measured.1 = zone) :
    t.violation? settings = zone.severity.map fun severity ↦
      { rule := t.metric
        message := t.metric.message t.function.displayName t.measured.1 (t.thresholds settings) zone
        file := t.file.path
        line := t.measured.2.line
        column := t.measured.2.column
        severity := severity
        function := t.function.displayName
        value := t.measured.1
        thresholds := t.thresholds settings } := by
  subst hzone
  unfold violation? Finding.of?
  rw [Option.map_map]
  rfl

theorem violation?_eq_none {settings : Settings} {t : Subject} (h : ¬ t.ExceedsWarn settings) :
    t.violation? settings = none := by
  have hgreen : (t.thresholds settings).classify t.measured.1 = .green :=
    if_pos (not_lt.mp h)
  rw [violation?_eq_map settings t hgreen]
  rfl

/-- A measurement above the warning bound is reported, with its value, place and severity. -/
theorem violation?_reports {settings : Settings} {t : Subject} (h : t.ExceedsWarn settings) :
    ∃ v, t.violation? settings = some v ∧ t.Reports settings v := by
  have hwarn : ¬ Thresholds.clamp t.measured.1 ≤ (t.thresholds settings).warn := not_le.mpr h
  by_cases hfail : t.ExceedsFail settings
  · have hred : (t.thresholds settings).classify t.measured.1 = .red := by
      unfold Thresholds.classify
      rw [if_neg hwarn, if_neg]
      exact not_le.mpr hfail
    refine ⟨_, violation?_eq_map settings t hred, ?_⟩
    exact ⟨rfl, rfl, rfl, rfl, rfl, rfl, rfl, by simp [hfail], rfl⟩
  · have hyellow : (t.thresholds settings).classify t.measured.1 = .yellow := by
      unfold Thresholds.classify
      rw [if_neg hwarn, if_pos]
      exact not_lt.mp hfail
    refine ⟨_, violation?_eq_map settings t hyellow, ?_⟩
    exact ⟨rfl, rfl, rfl, rfl, rfl, rfl, rfl, by simp [hfail], rfl⟩

/-- The violations of a list of subjects report those above their warning bound, each once. -/
theorem rel_filterMap_violation? (settings : Settings) (subjects : List Subject) :
    Multiset.Rel (Reports settings) (Multiset.filter (ExceedsWarn settings) subjects)
      (subjects.filterMap (violation? settings)) := by
  induction subjects with
  | nil => exact Multiset.Rel.zero
  | cons t rest ih =>
    rw [← Multiset.cons_coe]
    by_cases h : t.ExceedsWarn settings
    · obtain ⟨v, hv, hreports⟩ := violation?_reports h
      rw [Multiset.filter_cons_of_pos _ h, List.filterMap_cons_some hv, ← Multiset.cons_coe]
      exact Multiset.Rel.cons hreports ih
    · rw [Multiset.filter_cons_of_neg _ h, List.filterMap_cons_none (violation?_eq_none h)]
      exact ih

/-! ## From functions to packages -/

/-- The violations of a function are those of its subjects, in the order of the metrics. -/
theorem filterMap_ofFunction (settings : Settings) (view : FileView) (file : SourceFile)
    (f : FunctionDecl) :
    (ofFunction view file f).filterMap (violation? settings) =
      (analyze settings f (view.resolve f.bindings)).map (Violation.ofFinding file.path) := by
  unfold ofFunction
  split
  next h => simp [analyze, Metric.measure, h]
  next body h =>
    simp only [analyze, Metric.measure, h, Option.map_some, Option.bind_some, List.filterMap_map,
      List.map_filterMap]
    rfl

/-- A function without a body is not measured. -/
theorem ofFunction_eq_nil {view : FileView} {file : SourceFile} {f : FunctionDecl}
    (h : ¬ f.body.isSome) : ofFunction view file f = [] := by
  unfold ofFunction
  split
  · rfl
  next body hbody => simp [hbody] at h

/-- The violations of a file are those of its subjects, in order. -/
theorem violations_ofFile (settings : Settings) (scope : Scope) (file : SourceFile) :
    (Outcome.ofFile settings scope file).violations =
      (ofFile scope file).filterMap (violation? settings) := by
  unfold Outcome.ofFile ofFile
  simp only [List.filterMap_flatMap, ← filterMap_ofFunction]
  induction file.functions with
  | nil => rfl
  | cons f rest ih =>
    by_cases hbody : f.body.isSome
    · simp [hbody, ih]
    · simp [hbody, ih, ofFunction_eq_nil hbody]

/-- The violations of a run come from the subjects of its packages, up to order. -/
theorem violations_runPackages (settings : Settings) (packages : List Package) :
    ((runPackages settings packages).violations : Multiset Violation) =
      (ofPackages packages).filterMap (violation? settings) := by
  refine Multiset.coe_eq_coe.mpr ((Outcome.sort_perm _).trans (List.Perm.of_eq ?_))
  rw [Outcome.foldl_merge_eq]
  simp only [Outcome.empty, List.nil_append, ofPackages, Package.outcomes, List.flatMap_assoc,
    List.flatMap_map, List.filterMap_flatMap, violations_ofFile]

end Subject

/-! ## Counts -/

/-- What every outcome of a file takes from the file alone is listed file by file. -/
theorem map_outcomes {α : Type} {settings : Settings} {count : Outcome → α} {f : SourceFile → α}
    (h : ∀ scope file, count (Outcome.ofFile settings scope file) = f file)
    (packages : List Package) :
    (packages.flatMap (Package.outcomes settings)).map count =
      (packages.flatMap Package.files).map f := by
  rw [List.map_flatMap, List.map_flatMap]
  apply List.flatMap_congr
  intro p _
  rw [Package.outcomes, List.map_map]
  exact List.map_congr_left fun file _ ↦ h _ file

/-- Every file of every package is counted as scanned. -/
theorem scanned_runPackages (settings : Settings) (packages : List Package) :
    (runPackages settings packages).scanned = (packages.flatMap Package.files).length := by
  change (List.foldl Outcome.merge .empty _).scanned = _
  rw [Outcome.foldl_merge_eq, map_outcomes (f := fun _ ↦ 1) fun _ _ ↦ rfl]
  simp [Outcome.empty]

/-- A run counts the functions that have a body. -/
theorem functions_runPackages (settings : Settings) (packages : List Package) :
    (runPackages settings packages).functions =
      ((packages.flatMap Package.files).flatMap SourceFile.functions).countP (·.body.isSome) := by
  have hfile (scope : Scope) (file : SourceFile) :
      (Outcome.ofFile settings scope file).functions = file.functions.countP (·.body.isSome) :=
    List.countP_eq_length_filter.symm
  change (List.foldl Outcome.merge .empty _).functions = _
  rw [Outcome.foldl_merge_eq, map_outcomes hfile, List.countP_flatMap]
  exact Nat.zero_add _

/-- A run reports exactly the subjects above their warning bound, each once, as an error exactly if
they are above the other bound too, in report order. It counts the files and the functions with a body. -/
theorem runPackages_exact (settings : Settings) (packages : List Package) :
    Multiset.Rel (Subject.Reports settings)
      (Multiset.filter (Subject.ExceedsWarn settings) (Subject.ofPackages packages))
      (runPackages settings packages).violations ∧
    (runPackages settings packages).violations.Pairwise (fun v w ↦ v.key ≤ w.key) ∧
    (runPackages settings packages).scanned = (packages.flatMap Package.files).length ∧
    (runPackages settings packages).functions =
      ((packages.flatMap Package.files).flatMap SourceFile.functions).countP (·.body.isSome) := by
  refine ⟨?_, Outcome.pairwise_sort _, scanned_runPackages settings packages,
    functions_runPackages settings packages⟩
  rw [Subject.violations_runPackages]
  exact Subject.rel_filterMap_violation? settings (Subject.ofPackages packages)

end GoComplexity
