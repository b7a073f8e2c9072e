import GoComplexity.Proofs.Lint.Limits
import GoComplexity.Proofs.Report.Summary

/-!
# Reports of one outcome

The JSON report, the SARIF log and the lines of an outcome are read each by a reader of its own, which
knows the format and not the writer. What they say is the same, violation by violation and in the same
order: a log has slashes for backslashes and positions from one, and lines leave out rule and severity.
The verdict, the counts and the exit status are those of the violations, however the outcome was put
together.
-/

namespace GoComplexity

/-! ## Putting an outcome together -/

namespace Outcome

/-- What can be done to an outcome. -/
inductive Edit where
  | add (v : Violation)
  | merge (other : Outcome)
  | sort

namespace Edit

def apply (o : Outcome) : Edit → Outcome
  | .add v => o.add v
  | .merge other => o.merge other
  | .sort => o.sort

/-- The violations that come in. -/
def violations : Edit → List Violation
  | .add v => [v]
  | .merge other => other.violations
  | .sort => []

/-- An edit of an outcome adds its own violations and loses none. -/
theorem perm_apply (o : Outcome) (e : Edit) :
    (apply o e).violations.Perm (o.violations ++ e.violations) := by
  cases e with
  | add v => exact List.Perm.refl _
  | merge other => exact List.Perm.refl _
  | sort =>
    change o.sort.violations.Perm (o.violations ++ [])
    rw [List.append_nil]
    exact o.sort_perm

/-- However an outcome is changed, no violation is lost and none appears from nowhere. -/
theorem perm_foldl_apply (o : Outcome) (edits : List Edit) :
    (edits.foldl apply o).violations.Perm (o.violations ++ edits.flatMap violations) := by
  induction edits generalizing o with
  | nil =>
    rw [List.foldl_nil, List.flatMap_nil, List.append_nil]
  | cons e rest ih =>
    calc
      (rest.foldl apply (apply o e)).violations.Perm
          ((apply o e).violations ++ rest.flatMap violations) := ih (apply o e)
      List.Perm _ ((o.violations ++ e.violations) ++ rest.flatMap violations) :=
        (perm_apply o e).append_right _
      _ = o.violations ++ (e :: rest).flatMap violations := by
        rw [List.append_assoc, List.flatMap_cons]

end Edit

end Outcome

namespace Report

/-! ## Diagnostics -/

/-- What every report could say of a violation. -/
structure Diagnostic where
  rule : String
  severity : String
  file : String
  line : ℕ
  column : ℕ
  message : String
deriving DecidableEq

namespace Diagnostic

def ofViolation (v : Violation) : Diagnostic :=
  { rule := v.rule.name
    severity := v.severity.name
    file := v.file
    line := v.line
    column := v.column
    message := v.message }

/-- The same as a SARIF log says it. -/
def inSarif (d : Diagnostic) : Diagnostic :=
  { d with
    file := d.file.map fun c ↦ if c = '\\' then '/' else c
    line := max d.line 1
    column := max d.column 1 }

/-- The same on one line. -/
def text (d : Diagnostic) : String :=
  d.file ++ ":" ++ toString d.line ++ ":" ++ toString d.column ++ ": " ++ d.message

end Diagnostic

/-! ## Readers -/

def natural? : Json → Option ℕ
  | .int (.ofNat n) => some n
  | _ => none

theorem natural?_int (n : ℕ) : natural? (.int n) = some n := rfl

/-- The one item of an array. -/
def single? {α : Type} (item? : Json → Option α) : Json → Option α
  | .arr [x] => item? x
  | _ => none

def diagnostic? (j : Json) : Option Diagnostic := do
  let rule ← get? "rule" str? j
  let severity ← get? "severity" str? j
  let file ← get? "file" str? j
  let line ← get? "line" natural? j
  let column ← get? "column" natural? j
  let message ← get? "message" str? j
  return { rule, severity, file, line, column, message }

/-- The verdict of a JSON report, with its counts and violations. -/
structure Overview where
  passed : Bool
  errors : ℕ
  warnings : ℕ
  violations : List Diagnostic
deriving DecidableEq

def overview? (j : Json) : Option Overview := do
  let passed ← get? "passed" bool? j
  let errors ← get? "errors" natural? j
  let warnings ← get? "warnings" natural? j
  let violations ← get? "violations" (list? diagnostic?) j
  return { passed, errors, warnings, violations }

def readOverview? (text : String) : Option Overview := (Json.read? text).bind overview?

/-- A result of a SARIF log, which has one location. -/
def result? (j : Json) : Option Diagnostic := do
  let rule ← get? "ruleId" str? j
  let severity ← get? "level" str? j
  let message ← get? "message" (get? "text" str?) j
  let location ← get? "locations" (single? (field? "physicalLocation")) j
  let file ← get? "artifactLocation" (get? "uri" str?) location
  let line ← get? "region" (get? "startLine" natural?) location
  let column ← get? "region" (get? "startColumn" natural?) location
  return { rule, severity, file, line, column, message }

/-- The results of the one run of a SARIF log. -/
def results? (j : Json) : Option (List Diagnostic) :=
  get? "runs" (single? (get? "results" (list? result?))) j

def readResults? (text : String) : Option (List Diagnostic) := (Json.read? text).bind results?

/-- The lines of a text in which every line ends with a line break. -/
def readLines? (text : String) : Option (List String) :=
  let parts := text.toList.splitOn '\n'
  if parts.getLast? = some [] then some (parts.dropLast.map String.ofList) else none

/-! ## What is read from each report -/

/-- What the JSON text says about a violation is read back as its diagnostic. -/
theorem diagnostic?_violationJson (v : Violation) :
    diagnostic? (violationJson v) = some (.ofViolation v) := by
  have hline := get?_of_field? "line" (violationJson v) rfl (natural?_int v.line)
  have hcolumn := get?_of_field? "column" (violationJson v) rfl (natural?_int v.column)
  unfold diagnostic?
  rw [hline, hcolumn]
  rfl

theorem readOverview?_json (patterns : List String) (s : Settings) (o : Outcome) :
    readOverview? (json patterns s o) = some
      { passed := !o.hasErrors
        errors := o.errors
        warnings := o.warnings
        violations := o.violations.map .ofViolation } := by
  have herrors := get?_of_field? "errors" (summaryJson patterns s o) rfl (natural?_int o.errors)
  have hwarnings := get?_of_field? "warnings" (summaryJson patterns s o) rfl (natural?_int o.warnings)
  have hviolations := get?_of_field? "violations" (summaryJson patterns s o) rfl
    (list?_map fun v (_ : v ∈ o.violations) ↦ diagnostic?_violationJson v)
  unfold readOverview? json
  rw [Json.read?_render, Option.bind_some, overview?, herrors, hwarnings, hviolations]
  rfl

theorem Sarif.level_eq_name (severity : Severity) : level severity = severity.name := by
  cases severity <;> rfl

theorem Sarif.uri_eq_map (file : String) :
    uri file = file.map fun c ↦ if c = '\\' then '/' else c := by
  rw [← String.toList_inj, String.toList_map, uri, String.toList_ofList]

/-- What the SARIF text says about a violation is its diagnostic with slashes in the file. -/
theorem result?_result (v : Violation) :
    result? (Sarif.result v) = some (Diagnostic.ofViolation v).inSarif := by
  have hread : result? (Sarif.result v) = some
      { rule := v.rule.name
        severity := Sarif.level v.severity
        file := Sarif.uri v.file
        line := max v.line 1
        column := max v.column 1
        message := v.message } := rfl
  rw [hread, Sarif.level_eq_name, Sarif.uri_eq_map]
  rfl

theorem readResults?_sarif (o : Outcome) :
    readResults? (sarif o) = some (o.violations.map fun v ↦ (Diagnostic.ofViolation v).inSarif) := by
  have hresults : results? (Sarif.log o) = list? result? (.arr (o.violations.map Sarif.result)) := rfl
  unfold readResults? sarif
  rw [Json.read?_render, Option.bind_some, hresults]
  exact list?_map fun v _ ↦ result?_result v

theorem newline_not_mem_toString (n : ℕ) : '\n' ∉ (toString n).toList := by
  intro hmem
  rw [show (toString n).toList = Nat.toDigits 10 n from String.toList_ofList] at hmem
  have hdigit := Nat.isDigit_of_mem_toDigits (by omega) (by omega) hmem
  exact absurd hdigit (by decide)

theorem line_eq (v : Violation) : line v = (Diagnostic.ofViolation v).text ++ "\n" := rfl

theorem newline_not_mem_text {d : Diagnostic} (hfile : '\n' ∉ d.file.toList)
    (hmessage : '\n' ∉ d.message.toList) : '\n' ∉ d.text.toList := by
  unfold Diagnostic.text
  simp only [String.toList_append, List.mem_append, not_or]
  exact ⟨⟨⟨⟨⟨⟨hfile, by decide⟩, newline_not_mem_toString d.line⟩, by decide⟩,
    newline_not_mem_toString d.column⟩, by decide⟩, hmessage⟩

/-- Lines without line breaks inside come apart again. -/
theorem splitOn_flatMap_newline {texts : List String} (h : ∀ t ∈ texts, '\n' ∉ t.toList) :
    (texts.flatMap fun t ↦ t.toList ++ ['\n']).splitOn '\n' = texts.map String.toList ++ [[]] := by
  induction texts with
  | nil => rfl
  | cons t rest ih =>
    obtain ⟨ht, hrest⟩ := List.forall_mem_cons.mp h
    have hsep : ∀ c ∈ t.toList, (c == '\n') = false := by
      intro c hc
      apply beq_false_of_ne
      rintro rfl
      exact ht hc
    rw [List.flatMap_cons, List.append_assoc, List.singleton_append, List.splitOn,
      List.splitOnP_append_cons_of_forall_mem hsep _ rfl]
    exact congrArg (t.toList :: ·) (ih hrest)

/-- The plain lines are read back one by one, if no name or message breaks a line. -/
theorem readLines?_lines {o : Outcome}
    (h : ∀ v ∈ o.violations, '\n' ∉ v.file.toList ∧ '\n' ∉ v.message.toList) :
    readLines? (lines o) = some (o.violations.map fun v ↦ (Diagnostic.ofViolation v).text) := by
  have hparts : (lines o).toList.splitOn '\n' =
      (o.violations.map fun v ↦ (Diagnostic.ofViolation v).text).map String.toList ++ [[]] := by
    rw [← splitOn_flatMap_newline, List.flatMap_map]
    · unfold lines
      rw [String.toList_join, List.flatMap_map]
      simp only [line_eq, String.toList_append]
      rfl
    · intro t ht
      obtain ⟨v, hv, rfl⟩ := List.mem_map.mp ht
      exact newline_not_mem_text (h v hv).1 (h v hv).2
  unfold readLines?
  simp [hparts, List.map_map, Function.comp_def]

/-! ## Counts and verdict -/

/-- Every violation is an error or a warning. -/
theorem errors_add_warnings (o : Outcome) : o.errors + o.warnings = o.violations.length := by
  have hother (v : Violation) :
      decide (¬ (v.severity == Severity.error) = true) = (v.severity == .warning) := by
    cases v.severity <;> rfl
  rw [List.length_eq_countP_add_countP (·.severity == Severity.error)]
  simp only [hother]
  rfl

theorem countP_severity_error (o : Outcome) :
    (o.violations.map fun v ↦ (Diagnostic.ofViolation v).inSarif).countP (·.severity == "error") =
      o.errors := by
  have hname (severity : Severity) : (severity.name == "error") = (severity == .error) := by
    cases severity <;> rfl
  rw [List.countP_map]
  apply List.countP_congr
  intro v _
  exact Iff.of_eq (congrArg (· = true) (hname v.severity))

theorem not_hasErrors_iff (o : Outcome) : (!o.hasErrors) = true ↔ o.errors = 0 := by
  rw [Bool.not_eq_true', ← Bool.not_eq_true, Outcome.hasErrors_iff, Nat.pos_iff_ne_zero, not_not]

/-- What the reports of an outcome have to do with it and with each other. -/
structure Agree (o : Outcome) (overview : Overview) (log : List Diagnostic) : Prop where
  violations : overview.violations = o.violations.map .ofViolation
  results : log = overview.violations.map Diagnostic.inSarif
  lines : (∀ v ∈ o.violations, '\n' ∉ v.file.toList ∧ '\n' ∉ v.message.toList) →
    readLines? (lines o) = some (overview.violations.map Diagnostic.text)
  total : overview.errors + overview.warnings = o.violations.length
  errors : overview.errors = log.countP (·.severity == "error")
  passed : overview.passed = true ↔ overview.errors = 0

/-- The three renderings of one outcome list the same diagnostics with the same counts. -/
theorem exists_agree (patterns : List String) (s : Settings) (o : Outcome) :
    ∃ overview log, readOverview? (json patterns s o) = some overview ∧
      readResults? (sarif o) = some log ∧ (overview.passed = !o.hasErrors) ∧ Agree o overview log := by
  refine ⟨_, _, readOverview?_json patterns s o, readResults?_sarif o, rfl, ?_⟩
  constructor
  case violations => rfl
  case results => rw [List.map_map]; rfl
  case lines =>
    intro h
    rw [readLines?_lines h, List.map_map]
    rfl
  case total => exact errors_add_warnings o
  case errors => exact (countP_severity_error o).symm
  case passed => exact not_hasErrors_iff o

end Report

/-- A run that came to its end replies with the report of its format. -/
theorem Command.lint_eq_report {ws : Workspace} {o : Options} {r : LintResult} (color : Bool)
    (hpatterns : o.patterns ≠ []) (hrun : ws.lint o.request = .ok r) :
    lint ws color o = report color o r := by
  unfold lint
  rw [hrun, if_neg]
  rwa [List.isEmpty_iff]

/-- However an outcome was put together, it holds what went into it, and its JSON report, its SARIF log
and its lines are read as the same violations in the same order, with the counts and the verdict that
these have. A run with this outcome writes these reports, and its exit status is the verdict. -/
theorem reports_agree (start : Outcome) (edits : List Outcome.Edit) (patterns : List String)
    (s : Settings) :
    let o := edits.foldl Outcome.Edit.apply start
    o.violations.Perm (start.violations ++ edits.flatMap Outcome.Edit.violations) ∧
    ∃ overview log, Report.readOverview? (Report.json patterns s o) = some overview ∧
      Report.readResults? (Report.sarif o) = some log ∧ Report.Agree o overview log ∧
      ∀ (ws : Workspace) (color : Bool) (options : Command.Options) (run : LintResult),
        options.patterns ≠ [] → ws.lint options.request = .ok run → run.outcome = o →
          let reply (format : Command.Format) : Command.Reply :=
            Command.lint ws color { options with format := format }
          (reply .text).err = Report.lines o ∧
          (reply .json).out = Report.json options.patterns run.settings o ++ "\n" ∧
          (reply .sarif).out = Report.sarif o ++ "\n" ∧
          ∀ format, (reply format).exitCode = 0 ↔ overview.passed = true := by
  intro o
  obtain ⟨overview, log, hjson, hsarif, hpassed, hagree⟩ := Report.exists_agree patterns s o
  refine ⟨Outcome.Edit.perm_foldl_apply start edits, overview, log, hjson, hsarif, hagree, ?_⟩
  intro ws color options run hpatterns hrun houtcome reply
  have hreply (format : Command.Format) :
      reply format = Command.report color { options with format := format } run :=
    Command.lint_eq_report color hpatterns hrun
  refine ⟨?_, ?_, ?_, ?_⟩
  · rw [hreply, ← houtcome]
    rfl
  · rw [hreply, ← houtcome]
    rfl
  · rw [hreply, ← houtcome]
    rfl
  · intro format
    rw [hreply, Command.exitCode_report, houtcome, hpassed]
    cases o.hasErrors <;> simp

/-- Two violations without positions, the second of which a merge brings in and sorting puts first, and
a run that fails. -/
theorem reports_agree_warning_and_error :
    let o := [.add ⟨.cyclo, "b", "x\\b.go", 0, 0, .warning, "f", 10, ⟨9, 14⟩⟩,
      .merge ⟨[⟨.params, "a: 1", "a.go", 0, 7, .error, "g", 7, ⟨4, 6⟩⟩], 1, 1⟩, .sort].foldl
        Outcome.Edit.apply .empty
    (∃ overview log, Report.readOverview? (Report.json ["."] .defaults o) = some overview ∧
      Report.readResults? (Report.sarif o) = some log ∧ Report.Agree o overview log ∧
      log.map Report.Diagnostic.file = ["a.go", "x/b.go"] ∧ overview.errors = 1 ∧
      Report.readLines? (Report.lines o) = some ["a.go:0:7: a: 1", "x\\b.go:0:0: b"]) ∧
    ∃ (ws : Workspace) (options : Command.Options) (run : LintResult),
      ws.lint options.request = .ok run ∧ run.outcome.errors = 1 ∧
      (Command.lint ws false options).exitCode ≠ 0 := by
  intro o
  have hviolations : o.violations =
      [⟨.params, "a: 1", "a.go", 0, 7, .error, "g", 7, ⟨4, 6⟩⟩,
        ⟨.cyclo, "b", "x\\b.go", 0, 0, .warning, "f", 10, ⟨9, 14⟩⟩] := by
    cbv
  constructor
  · obtain ⟨-, overview, log, hjson, hsarif, hagree, -⟩ := reports_agree .empty _ ["."] .defaults
    refine ⟨overview, log, hjson, hsarif, hagree, ?_, ?_, ?_⟩
    · rw [hagree.results, hagree.violations, hviolations]
      decide +kernel
    · rw [hagree.errors, hagree.results, hagree.violations, hviolations]
      decide +kernel
    · rw [hagree.lines, hagree.violations, hviolations]
      · decide +kernel
      · rw [hviolations]
        decide +kernel
  · let source := "package p\nfunc f(a, b, c, d, e, f, g int) \x7b\x7d\n".toUTF8
    let ws : Workspace := ⟨⟨[(["w", "a.go"], source)], []⟩, .ofNames ["w"]⟩
    let options : Command.Options := ⟨["."], none, .text, false, false, [], []⟩
    have hlint : (ws.lint options.request).toOption.any (·.outcome.errors == 1) = true := by
      decide +kernel
    cases hrun : ws.lint options.request with
    | error e =>
      rw [hrun] at hlint
      contradiction
    | ok run =>
      rw [hrun] at hlint
      have herrors : run.outcome.errors = 1 := beq_iff_eq.mp hlint
      obtain ⟨-, overview, log, -, -, hagree, hexit⟩ := reports_agree run.outcome [] ["."] .defaults
      have hcount : overview.errors = run.outcome.errors := by
        rw [hagree.errors, hagree.results, hagree.violations, List.map_map]
        exact Report.countP_severity_error run.outcome
      refine ⟨ws, options, run, hrun, herrors, fun hzero ↦ ?_⟩
      have hpassed := ((hexit ws false options run (by decide) hrun rfl).2.2.2 .text).mp hzero
      rw [hagree.passed, hcount, herrors] at hpassed
      contradiction

end GoComplexity
