import GoComplexity.Proofs.Report.JsonText
import GoComplexity.Report.Plain
import GoComplexity.Text.Integer

/-!
# Reading the JSON report

A summary is what a JSON report holds: the settings and patterns of a run, its verdict and counts, and
an entry for each violation. Summaries are read from any JSON text that has each field once and with
the right type, in any order: counts are unsigned and bounds signed 64-bit numbers. Reading a report
gives back everything that went into it, so different runs have different reports.
-/

namespace GoComplexity.Report

open Text

/-! ## Fields of objects -/

/-- The field of a name, which an object has to have exactly once. -/
def field? (name : String) : Json → Option Json
  | .obj fields =>
    match fields.filter fun field ↦ field.1 == name with
    | [(_, x)] => some x
    | _ => none
  | _ => none

/-- The field of a name, read as a value of some type. -/
def get? {α : Type} (name : String) (item? : Json → Option α) (j : Json) : Option α :=
  (field? name j).bind item?

def str? : Json → Option String
  | .str s => some s
  | _ => none

def bool? : Json → Option Bool
  | .bool b => some b
  | _ => none

/-- A signed 64-bit number. -/
def signed? : Json → Option ℤ
  | .int n => fit64 n
  | _ => none

def maxUnsigned64 : ℕ := 18446744073709551615

/-- An unsigned 64-bit number. -/
def unsigned? : Json → Option ℕ
  | .int n => if 0 ≤ n ∧ n ≤ maxUnsigned64 then some n.toNat else none
  | _ => none

def list? {α : Type} (item? : Json → Option α) : Json → Option (List α)
  | .arr items => items.mapM item?
  | _ => none

/-! ## Summaries -/

/-- What a report says of a violation. -/
structure Entry where
  rule : String
  severity : String
  file : String
  line : ℕ
  column : ℕ
  function : String
  value : ℕ
  warn : ℤ
  fail : ℤ
  message : String
deriving DecidableEq

structure Summary where
  version : String
  patterns : List String
  thresholds : Settings
  passed : Bool
  filesScanned : ℕ
  functionsAnalyzed : ℕ
  errors : ℕ
  warnings : ℕ
  violations : List Entry

def bounds? (j : Json) : Option Thresholds := do
  let warn ← get? "warn" signed? j
  let fail ← get? "fail" signed? j
  return ⟨warn, fail⟩

def settings? (j : Json) : Option Settings := do
  let nestDepth ← get? "nestdepth" bounds? j
  let cyclo ← get? "cyclo" bounds? j
  let params ← get? "params" bounds? j
  let fanOut ← get? "fanout" bounds? j
  return ⟨nestDepth, cyclo, params, fanOut⟩

def entryOf? (j : Json) : Option Entry := do
  let rule ← get? "rule" str? j
  let severity ← get? "severity" str? j
  let file ← get? "file" str? j
  let line ← get? "line" unsigned? j
  let column ← get? "column" unsigned? j
  let function ← get? "function" str? j
  let value ← get? "value" unsigned? j
  let warn ← get? "warn" signed? j
  let fail ← get? "fail" signed? j
  let message ← get? "message" str? j
  return { rule, severity, file, line, column, function, value, warn, fail, message }

def summary? (j : Json) : Option Summary := do
  let version ← get? "version" str? j
  let patterns ← get? "patterns" (list? str?) j
  let thresholds ← get? "thresholds" settings? j
  let passed ← get? "passed" bool? j
  let filesScanned ← get? "files_scanned" unsigned? j
  let functionsAnalyzed ← get? "functions_analyzed" unsigned? j
  let errors ← get? "errors" unsigned? j
  let warnings ← get? "warnings" unsigned? j
  let violations ← get? "violations" (list? entryOf?) j
  return { version, patterns, thresholds, passed, filesScanned, functionsAnalyzed, errors, warnings,
           violations }

/-- The summary that a JSON text holds. -/
def readSummary? (text : String) : Option Summary := (Json.read? text).bind summary?

/-- What a report should say of a violation. -/
def Entry.ofViolation (v : Violation) : Entry :=
  { rule := v.rule.name
    severity := v.severity.name
    file := v.file
    line := v.line
    column := v.column
    function := v.function
    value := v.value
    warn := v.thresholds.warn
    fail := v.thresholds.fail
    message := v.message }

/-! ## Ranges -/

def Unsigned64 (n : ℕ) : Prop := n ≤ maxUnsigned64

def Signed64 (n : ℤ) : Prop := minInt64 ≤ n ∧ n ≤ maxInt64

instance : DecidablePred Unsigned64 := fun n ↦ inferInstanceAs (Decidable (n ≤ maxUnsigned64))

instance : DecidablePred Signed64 :=
  fun n ↦ inferInstanceAs (Decidable (minInt64 ≤ n ∧ n ≤ maxInt64))

/-- Whether all numbers of a run are 64-bit numbers. -/
structure InRange (s : Settings) (o : Outcome) : Prop where
  bounds : ∀ m, Signed64 (s.get m).warn ∧ Signed64 (s.get m).fail
  scanned : Unsigned64 o.scanned
  functions : Unsigned64 o.functions
  violations : Unsigned64 o.violations.length
  positions : ∀ v ∈ o.violations, Unsigned64 v.line ∧ Unsigned64 v.column
  values : ∀ v ∈ o.violations, Unsigned64 v.value
  thresholds : ∀ v ∈ o.violations, Signed64 v.thresholds.warn ∧ Signed64 v.thresholds.fail

theorem signed?_int {n : ℤ} (h : Signed64 n) : signed? (.int n) = some n := if_pos h

theorem unsigned?_int {n : ℕ} (h : Unsigned64 n) : unsigned? (.int n) = some n := by
  have hrange : (0 : ℤ) ≤ n ∧ (n : ℤ) ≤ maxUnsigned64 := ⟨Int.natCast_nonneg n, Int.ofNat_le.mpr h⟩
  rw [unsigned?, if_pos hrange, Int.toNat_natCast]

theorem list?_map {α β : Type} {item? : Json → Option β} {item : α → Json} {f : α → β} {xs : List α}
    (h : ∀ x ∈ xs, item? (item x) = some (f x)) :
    list? item? (.arr (xs.map item)) = some (xs.map f) := by
  rw [list?]
  induction xs with
  | nil => rfl
  | cons x xs ih =>
    obtain ⟨hx, hxs⟩ := List.forall_mem_cons.mp h
    rw [List.map_cons, List.mapM_cons, hx, ih hxs]
    rfl

theorem get?_of_field? {α : Type} (name : String) (j : Json) {item? : Json → Option α} {x : Json} {a : α}
    (hfield : field? name j = some x) (hitem : item? x = some a) : get? name item? j = some a := by
  rw [get?, hfield, Option.bind_some, hitem]

/-! ## Reports read back -/

theorem bounds?_boundsJson {t : Thresholds} (h : Signed64 t.warn ∧ Signed64 t.fail) :
    bounds? (boundsJson t) = some t := by
  have hwarn : get? "warn" signed? (boundsJson t) = some t.warn :=
    get?_of_field? _ _ rfl (signed?_int h.1)
  have hfail : get? "fail" signed? (boundsJson t) = some t.fail :=
    get?_of_field? _ _ rfl (signed?_int h.2)
  rw [bounds?, hwarn, hfail]
  rfl

/-- Settings within 64 bits are read back. -/
theorem settings?_settingsJson {s : Settings}
    (h : ∀ m, Signed64 (s.get m).warn ∧ Signed64 (s.get m).fail) :
    settings? (settingsJson s) = some s := by
  have hmetric (m : Metric) : get? m.name bounds? (settingsJson s) = some (s.get m) := by
    refine get?_of_field? (x := boundsJson (s.get m)) _ _ ?_ (bounds?_boundsJson (h m))
    cases m <;> rfl
  have hnest : get? "nestdepth" bounds? (settingsJson s) = some s.nestDepth := hmetric .nestDepth
  have hcyclo : get? "cyclo" bounds? (settingsJson s) = some s.cyclo := hmetric .cyclo
  have hparams : get? "params" bounds? (settingsJson s) = some s.params := hmetric .params
  have hfan : get? "fanout" bounds? (settingsJson s) = some s.fanOut := hmetric .fanOut
  rw [settings?, hnest, hcyclo, hparams, hfan]
  rfl

/-- A violation with numbers within 64 bits is read back. -/
theorem entryOf?_violationJson {v : Violation} (hline : Unsigned64 v.line)
    (hcolumn : Unsigned64 v.column) (hvalue : Unsigned64 v.value)
    (hbounds : Signed64 v.thresholds.warn ∧ Signed64 v.thresholds.fail) :
    entryOf? (violationJson v) = some (Entry.ofViolation v) := by
  have hline := get?_of_field? "line" (violationJson v) rfl (unsigned?_int hline)
  have hcolumn := get?_of_field? "column" (violationJson v) rfl (unsigned?_int hcolumn)
  have hvalue := get?_of_field? "value" (violationJson v) rfl (unsigned?_int hvalue)
  have hwarn := get?_of_field? "warn" (violationJson v) rfl (signed?_int hbounds.1)
  have hfail := get?_of_field? "fail" (violationJson v) rfl (signed?_int hbounds.2)
  rw [entryOf?, hline, hcolumn, hvalue, hwarn, hfail]
  rfl

/-- The whole summary is read back, field by field, if all its numbers are in range. -/
theorem summary?_summaryJson (patterns : List String) {s : Settings} {o : Outcome}
    (h : InRange s o) : summary? (summaryJson patterns s o) = some
      { version := toolVersion
        patterns := patterns
        thresholds := s
        passed := !o.hasErrors
        filesScanned := o.scanned
        functionsAnalyzed := o.functions
        errors := o.errors
        warnings := o.warnings
        violations := o.violations.map Entry.ofViolation } := by
  have hcount (severity : Severity) : Unsigned64 (o.count severity) :=
    Nat.le_trans List.countP_le_length h.violations
  have hentries : ∀ v ∈ o.violations, entryOf? (violationJson v) = some (Entry.ofViolation v) :=
    fun v hv ↦ entryOf?_violationJson (h.positions v hv).1 (h.positions v hv).2 (h.values v hv)
      (h.thresholds v hv)
  have hstr : ∀ pattern ∈ patterns, str? (.str pattern) = some (id pattern) := fun _ _ ↦ rfl
  have hpatterns := get?_of_field? "patterns" (summaryJson patterns s o) rfl
    (list?_map hstr)
  have hsettings := get?_of_field? "thresholds" (summaryJson patterns s o) rfl
    (settings?_settingsJson h.bounds)
  have hscanned := get?_of_field? "files_scanned" (summaryJson patterns s o) rfl
    (unsigned?_int h.scanned)
  have hfunctions := get?_of_field? "functions_analyzed" (summaryJson patterns s o) rfl
    (unsigned?_int h.functions)
  have herrors := get?_of_field? "errors" (summaryJson patterns s o) rfl
    (unsigned?_int (hcount .error))
  have hwarnings := get?_of_field? "warnings" (summaryJson patterns s o) rfl
    (unsigned?_int (hcount .warning))
  have hviolations := get?_of_field? "violations" (summaryJson patterns s o) rfl
    (list?_map hentries)
  rw [List.map_id] at hpatterns
  rw [summary?, hpatterns, hsettings, hscanned, hfunctions, herrors, hwarnings, hviolations]
  rfl

/-! ## Reports tell runs apart -/

theorem boundsJson_injective : Function.Injective boundsJson := by
  rintro ⟨warn, fail⟩ ⟨warn', fail'⟩ h
  simpa [boundsJson] using h

theorem settingsJson_injective : Function.Injective settingsJson := by
  rintro ⟨_, _, _, _⟩ ⟨_, _, _, _⟩ h
  simpa [settingsJson, Metric.all, Settings.get, boundsJson_injective.eq_iff] using h

theorem metricName_injective : Function.Injective Metric.name := by
  intro m m' h
  cases m <;> cases m' <;> first | rfl | exact absurd h (by decide)

theorem severityName_injective : Function.Injective Severity.name := by
  intro z z' h
  cases z <;> cases z' <;> first | rfl | exact absurd h (by decide)

/-- No two violations have the same JSON value. -/
theorem violationJson_injective : Function.Injective violationJson := by
  rintro ⟨rule, _, _, _, _, severity, _, _, ⟨_, _⟩⟩ ⟨rule', _, _, _, _, severity', _, _, ⟨_, _⟩⟩ h
  simp only [violationJson, Json.obj.injEq, List.cons.injEq, Prod.mk.injEq, Json.str.injEq,
    Json.int.injEq, Int.natCast_inj, true_and, and_true] at h
  obtain ⟨hrule, hseverity, rfl, rfl, rfl, rfl, rfl, rfl, rfl, rfl⟩ := h
  obtain rfl := metricName_injective hrule
  obtain rfl := severityName_injective hseverity
  rfl

/-- The summary determines patterns, settings and outcome, with no bound on the numbers. -/
theorem summaryJson_injective {patterns patterns' : List String} {s s' : Settings} {o o' : Outcome}
    (h : summaryJson patterns s o = summaryJson patterns' s' o') :
    patterns = patterns' ∧ s = s' ∧ o = o' := by
  obtain ⟨violations, scanned, functions⟩ := o
  obtain ⟨violations', scanned', functions'⟩ := o'
  simp only [summaryJson, Json.obj.injEq, List.cons.injEq, Prod.mk.injEq, Json.arr.injEq,
    Json.int.injEq, Int.natCast_inj, true_and, and_true] at h
  obtain ⟨hpatterns, hsettings, -, rfl, rfl, -, -, hviolations⟩ := h
  have hstr : Function.Injective Json.str := fun _ _ hs ↦ Json.str.inj hs
  obtain rfl := List.map_injective_iff.mpr violationJson_injective hviolations
  exact ⟨List.map_injective_iff.mpr hstr hpatterns, settingsJson_injective hsettings, rfl⟩

/-- A JSON report reads back as the run it was written for, and so no other run has the same report. -/
theorem json_lossless (patterns : List String) (s : Settings) (o : Outcome) :
    (InRange s o → readSummary? (json patterns s o) = some
      { version := toolVersion
        patterns := patterns
        thresholds := s
        passed := decide (∀ v ∈ o.violations, v.severity ≠ .error)
        filesScanned := o.scanned
        functionsAnalyzed := o.functions
        errors := (o.violations.filter fun v ↦ v.severity = .error).length
        warnings := (o.violations.filter fun v ↦ v.severity = .warning).length
        violations := o.violations.map Entry.ofViolation }) ∧
    ∀ (patterns' : List String) (s' : Settings) (o' : Outcome),
      json patterns s o = json patterns' s' o' → patterns = patterns' ∧ s = s' ∧ o = o' := by
  constructor
  · intro h
    have hpassed : (!o.hasErrors) = decide (∀ v ∈ o.violations, v.severity ≠ .error) := by
      rw [Bool.eq_iff_iff]
      simp [Outcome.hasErrors]
    have hcount (severity : Severity) :
        o.count severity = (o.violations.filter fun v ↦ v.severity = severity).length := by
      rw [Outcome.count, List.countP_eq_length_filter]
      rfl
    rw [readSummary?, json, Json.read?_render, Option.bind_some, summary?_summaryJson patterns h,
      hpassed, Outcome.errors, Outcome.warnings, hcount, hcount]
  · intro patterns' s' o' heq
    exact summaryJson_injective (Json.render_injective heq)

/-- A run with the extreme numbers of each type and texts that need every kind of escape. -/
theorem json_lossless_extremes :
    readSummary? (json ["./...", "a\x22\\b\n\x01\x1f\x7fé"]
        ⟨⟨minInt64, maxInt64⟩, ⟨0, 0⟩, ⟨-1, 1⟩, ⟨5, 9⟩⟩
        ⟨[⟨.fanOut, "\x08\x0c\r\t/", "C:\\x.go", 1, maxUnsigned64, .error, "(*T).m", maxUnsigned64,
            ⟨minInt64, maxInt64⟩⟩],
          maxUnsigned64, 0⟩) = some
      { version := toolVersion
        patterns := ["./...", "a\x22\\b\n\x01\x1f\x7fé"]
        thresholds := ⟨⟨minInt64, maxInt64⟩, ⟨0, 0⟩, ⟨-1, 1⟩, ⟨5, 9⟩⟩
        passed := false
        filesScanned := maxUnsigned64
        functionsAnalyzed := 0
        errors := 1
        warnings := 0
        violations :=
          [{ rule := "fanout", severity := "error", file := "C:\\x.go", line := 1
             column := maxUnsigned64, function := "(*T).m", value := maxUnsigned64
             warn := minInt64, fail := maxInt64, message := "\x08\x0c\r\t/" }] } := by
  have hrange := (json_lossless ["./...", "a\x22\\b\n\x01\x1f\x7fé"]
    ⟨⟨minInt64, maxInt64⟩, ⟨0, 0⟩, ⟨-1, 1⟩, ⟨5, 9⟩⟩
    ⟨[⟨.fanOut, "\x08\x0c\r\t/", "C:\\x.go", 1, maxUnsigned64, .error, "(*T).m", maxUnsigned64,
        ⟨minInt64, maxInt64⟩⟩],
      maxUnsigned64, 0⟩).1
  refine (hrange ?_).trans (by rfl)
  constructor
  · intro m
    cases m <;> decide
  all_goals decide

end GoComplexity.Report
