import GoComplexity.Lint.Session
import Mathlib.Data.List.Basic
import Mathlib.Tactic.SplitIfs

/-!
# Layers of settings

Settings change by layers: bounds for one metric, or all that a configuration says. Each of the eight
bounds ends up as the last layer that sets it left it, whatever the layers say of the other seven. The
settings of a run are the built-in ones under a configuration and the flags, and only they are checked:
a layer that would be refused alone may fit into the whole, and the reverse. A run refuses its settings
by the first metric in report order whose bounds do not fit, and what it accepts once it accepts again.
-/

namespace GoComplexity

/-! ## Bounds -/

/-- One of the two bounds of a metric. -/
inductive Bound where
  | warn
  | fail
deriving DecidableEq

def Thresholds.bound (t : Thresholds) : Bound → Int
  | .warn => t.warn
  | .fail => t.fail

def PartialThresholds.bound? (p : PartialThresholds) : Bound → Option Int
  | .warn => p.warn
  | .fail => p.fail

/-- Given bounds replace the old ones, missing ones keep them. -/
theorem PartialThresholds.bound_apply (p : PartialThresholds) (t : Thresholds) (b : Bound) :
    (p.apply t).bound b = (p.bound? b).getD (t.bound b) := by
  cases b <;> rfl

/-- What a layer sets a bound to. It has one entry for a metric; of several the last one that sets the
bound would count. -/
def Layer.bound? (layer : Layer) (m : Metric) (b : Bound) : Option Int :=
  layer.reverse.findSome? fun entry ↦ if entry.1 = m then entry.2.bound? b else none

/-- If every step sets what is read or leaves it alone, the last step that sets it decides. -/
theorem read_foldl_eq_last {σ τ ν : Type} (step : σ → τ → σ) (read : σ → ν) (value? : τ → Option ν)
    (hstep : ∀ s x, read (step s x) = (value? x).getD (read s)) (s : σ) (steps : List τ) :
    read (steps.foldl step s) = (steps.reverse.findSome? value?).getD (read s) := by
  induction steps generalizing s with
  | nil => rfl
  | cons x rest ih =>
    calc
      read (rest.foldl step (step s x)) =
          (rest.reverse.findSome? value?).getD ((value? x).getD (read s)) := by rw [ih, hstep]
      _ = ((rest.reverse.findSome? value?).or (value? x)).getD (read s) := Option.getD_or.symm
      _ = ((x :: rest).reverse.findSome? value?).getD (read s) := by
        rw [List.reverse_cons, List.findSome?_append, List.findSome?_singleton]

namespace Settings

theorem get_set (s : Settings) (m m' : Metric) (t : Thresholds) :
    (s.set m t).get m' = if m = m' then t else s.get m' := by
  cases m <;> cases m' <;> rfl

/-- One change of one metric touches no bound of another metric. -/
theorem bound_applyPartial (s : Settings) (m m' : Metric) (p : PartialThresholds) (b : Bound) :
    ((s.applyPartial m p).get m').bound b =
      (if m = m' then p.bound? b else none).getD ((s.get m').bound b) := by
  unfold applyPartial
  rw [get_set]
  split_ifs with hm
  · rw [PartialThresholds.bound_apply, hm]
  · rfl

/-- A layer changes exactly the bounds it gives. -/
theorem bound_applyLayer (s : Settings) (layer : Layer) (m : Metric) (b : Bound) :
    ((s.applyLayer layer).get m).bound b = (layer.bound? m b).getD ((s.get m).bound b) := by
  apply read_foldl_eq_last _ (fun s : Settings ↦ (s.get m).bound b)
  intro s entry
  exact bound_applyPartial s entry.1 m entry.2 b

/-- A layer as it is put over settings. -/
inductive Change where
  | bounds (m : Metric) (p : PartialThresholds)
  | config (c : Config)

namespace Change

def apply (s : Settings) : Change → Settings
  | .bounds m p => s.applyPartial m p
  | .config c => s.applyLayer c.thresholds

/-- What the layer sets a bound to. -/
def bound? (m : Metric) (b : Bound) : Change → Option Int
  | .bounds m' p => if m' = m then p.bound? b else none
  | .config c => c.thresholds.bound? m b

theorem bound_apply (m : Metric) (b : Bound) (s : Settings) (c : Change) :
    ((apply s c).get m).bound b = (c.bound? m b).getD ((s.get m).bound b) := by
  cases c with
  | bounds m' p => exact bound_applyPartial s m' m p b
  | config c => exact bound_applyLayer s c.thresholds m b

end Change

/-! ## The settings of a run -/

/-- The bound that a run should have: that of the flags, else that of the configuration, else the
built-in one. -/
def layeredBound (config : Config) (flags : Layer) (m : Metric) (b : Bound) : Int :=
  ((flags.bound? m b).or (config.thresholds.bound? m b)).getD (m.defaults.bound b)

/-- Whether the bounds that a run should have for a metric are in order. -/
def Fits (config : Config) (flags : Layer) (m : Metric) : Prop :=
  0 ≤ layeredBound config flags m .warn ∧
    layeredBound config flags m .warn ≤ layeredBound config flags m .fail

instance (config : Config) (flags : Layer) : DecidablePred (Fits config flags) :=
  fun _ ↦ inferInstanceAs (Decidable (_ ∧ _))

def layered (config : Config) (flags : Layer) : Settings :=
  (defaults.applyLayer config.thresholds).applyLayer flags

/-- The settings made of defaults, configuration and flags have the bounds that the last word decides.
-/
theorem bound_layered (config : Config) (flags : Layer) (m : Metric) (b : Bound) :
    ((layered config flags).get m).bound b = layeredBound config flags m b := by
  have hdefaults : defaults.get m = m.defaults := by cases m <;> rfl
  unfold layered layeredBound
  rw [bound_applyLayer, bound_applyLayer, hdefaults, Option.getD_or]

end Settings

/-! ## Checks -/

/-- What validation finds nothing wrong with: no negative bound and no warning bound above the failing
one. -/
theorem Thresholds.fault?_eq_none_iff (t : Thresholds) :
    t.fault? = none ↔ 0 ≤ t.warn ∧ t.warn ≤ t.fail := by
  unfold fault?
  split_ifs <;> simp <;> omega

namespace Settings

/-- A check of some metrics passes if none of them has a fault, and else stops at the first fault. -/
theorem forM_validate_eq (s : Settings) (metrics : List Metric) :
    (metrics.forM fun m ↦ (s.get m).validate m.name) =
      match metrics.findSome? fun m ↦ (s.get m).fault?.map (ThresholdError.mk m.name) with
      | some e => .error e
      | none => .ok () := by
  induction metrics with
  | nil => rfl
  | cons m rest ih =>
    rw [List.forM, List.findSome?_cons, ih]
    unfold Thresholds.validate
    cases (s.get m).fault? <;> rfl

theorem fault?_layered_eq_none_iff (config : Config) (flags : Layer) (m : Metric) :
    ((layered config flags).get m).fault? = none ↔ Fits config flags m := by
  rw [Thresholds.fault?_eq_none_iff]
  unfold Fits
  rw [← bound_layered, ← bound_layered]
  rfl

theorem resolve_eq_ok_iff (config : Config) (flags : Layer) (s : Settings) :
    resolve config.thresholds flags = .ok s ↔ s = layered config flags ∧ s.validate = .ok () := by
  change ((layered config flags).validate >>= fun _ ↦ pure (layered config flags)) = _ ↔ _
  cases hvalid : (layered config flags).validate with
  | error e =>
    refine iff_of_false (by rintro ⟨⟩) ?_
    rintro ⟨rfl, hok⟩
    rw [hvalid] at hok
    contradiction
  | ok u =>
    constructor
    · rintro ⟨⟩
      exact ⟨rfl, hvalid⟩
    · rintro ⟨rfl, -⟩
      rfl

theorem resolve_eq_error_iff (config : Config) (flags : Layer) (e : ThresholdError) :
    resolve config.thresholds flags = .error e ↔ (layered config flags).validate = .error e := by
  change ((layered config flags).validate >>= fun _ ↦ pure (layered config flags)) = _ ↔ _
  cases (layered config flags).validate with
  | error e' => simp [bind, Except.bind]
  | ok u => exact iff_of_false (by rintro ⟨⟩) (by rintro ⟨⟩)

theorem validate_layered_eq_ok_iff (config : Config) (flags : Layer) :
    (layered config flags).validate = .ok () ↔ ∀ m, Fits config flags m := by
  have hall (m : Metric) : m ∈ Metric.all := by cases m <;> decide
  unfold validate
  rw [forM_validate_eq]
  cases hfault : Metric.all.findSome? fun m ↦
      ((layered config flags).get m).fault?.map (ThresholdError.mk m.name) with
  | none =>
    refine iff_of_true rfl fun m ↦ ?_
    have hm := List.findSome?_eq_none_iff.mp hfault m (hall m)
    exact (fault?_layered_eq_none_iff config flags m).mp (Option.map_eq_none_iff.mp hm)
  | some e =>
    refine iff_of_false (by simp) fun hfits ↦ ?_
    obtain ⟨m, -, hm⟩ := List.exists_of_findSome?_eq_some hfault
    rw [(fault?_layered_eq_none_iff config flags m).mpr (hfits m)] at hm
    simp at hm

/-- The fault names the first metric, in the fixed order, whose final bounds do not fit. -/
theorem exists_of_validate_layered_eq_error {config : Config} {flags : Layer} {e : ThresholdError}
    (h : (layered config flags).validate = .error e) :
    ∃ before m after, Metric.all = before ++ m :: after ∧ e.metric = m.name ∧
      ¬ Fits config flags m ∧ ∀ m' ∈ before, Fits config flags m' := by
  unfold validate at h
  rw [forM_validate_eq] at h
  split at h
  next e' hfault =>
    obtain rfl := Except.error.inj h
    obtain ⟨before, m, after, hall, hm, hbefore⟩ := List.findSome?_eq_some_iff.mp hfault
    obtain ⟨fault, hmfault, rfl⟩ := Option.map_eq_some_iff.mp hm
    refine ⟨before, m, after, hall, rfl, ?_, ?_⟩
    · rw [← fault?_layered_eq_none_iff, hmfault]
      exact Option.some_ne_none fault
    · intro m' hm'
      exact (fault?_layered_eq_none_iff config flags m').mp
        (Option.map_eq_none_iff.mp (hbefore m' hm'))
  next => contradiction

/-- Settings that were validated are accepted a second time. -/
theorem exists_engine {s : Settings} (h : s.validate = .ok ()) :
    ∃ engine, Engine.ofSettings s = .ok engine ∧ engine.settings = s := by
  unfold Engine.ofSettings
  split
  next hvalid => exact ⟨⟨s, hvalid⟩, rfl, rfl⟩
  next e herror =>
    rw [h] at herror
    contradiction

end Settings

/-- A step whose error is turned into one of another kind fails by its own error or by what follows. -/
theorem bind_mapError_eq_error_iff {α β ε ε' : Type} {x : Except ε α} {f : ε → ε'}
    {g : α → Except ε' β} {e : ε'} :
    (x.mapError f >>= g) = .error e ↔
      (∃ cause, x = .error cause ∧ f cause = e) ∨ ∃ a, x = .ok a ∧ g a = .error e := by
  cases x with
  | error cause => simp [Except.mapError, bind, Except.bind]
  | ok a => simp [Except.mapError, bind, Except.bind]

/-- A run that ends over its thresholds ends where they are merged: the second check has nothing to
refuse. -/
theorem Workspace.exists_of_lint_eq_thresholds {ws : Workspace} {r : LintRequest} {e : ThresholdError}
    (h : ws.lint r = .error (.thresholds e)) :
    ∃ config, ws.loadConfig r.config = .ok config ∧
      Settings.resolve config.thresholds r.flags = .error e := by
  unfold lint at h
  rcases bind_mapError_eq_error_iff.mp h with ⟨_, -, ⟨⟩⟩ | ⟨config, hconfig, h⟩
  refine ⟨config, hconfig, ?_⟩
  rcases bind_mapError_eq_error_iff.mp h with ⟨_, hresolve, ⟨⟩⟩ | ⟨s, hresolve, h⟩
  · exact hresolve
  · have hvalid := ((Settings.resolve_eq_ok_iff config r.flags s).mp hresolve).2
    obtain ⟨engine, hengine, -⟩ := Settings.exists_engine hvalid
    rcases bind_mapError_eq_error_iff.mp h with ⟨_, herror, -⟩ | ⟨_, -, h⟩
    · rw [hengine] at herror
      contradiction
    · rcases bind_mapError_eq_error_iff.mp h with ⟨_, -, ⟨⟩⟩ | ⟨_, -, h⟩
      rcases bind_mapError_eq_error_iff.mp h with ⟨_, -, ⟨⟩⟩ | ⟨_, -, ⟨⟩⟩

/-- Every bound is what the last layer that sets it says, or what it was before. The settings of a run
have flags over configuration over built-in bounds. They are refused exactly if some metric's bounds do
not fit, by the first such metric; what is accepted makes an engine, so that no run ends over its
thresholds anywhere else. -/
theorem Settings.last_layer_decides :
    (∀ (s : Settings) (changes : List Change) (m : Metric) (b : Bound),
      ((changes.foldl Change.apply s).get m).bound b =
        (changes.reverse.findSome? (Change.bound? m b)).getD ((s.get m).bound b)) ∧
    (∀ (config : Config) (flags : Layer),
      ((∃ s, resolve config.thresholds flags = .ok s) ↔ ∀ m, Fits config flags m) ∧
      (∀ s, resolve config.thresholds flags = .ok s →
        (∀ m b, (s.get m).bound b = layeredBound config flags m b) ∧
        ∃ engine, Engine.ofSettings s = .ok engine ∧ engine.settings = s) ∧
      ∀ e, resolve config.thresholds flags = .error e →
        ∃ before m after, [.nestDepth, .cyclo, .params, .fanOut] = before ++ m :: after ∧
          e.metric = m.name ∧ ¬ Fits config flags m ∧ ∀ m' ∈ before, Fits config flags m') ∧
    ∀ (ws : Workspace) (r : LintRequest) (e : ThresholdError), ws.lint r = .error (.thresholds e) →
      ∃ config, ws.loadConfig r.config = .ok config ∧ resolve config.thresholds r.flags = .error e := by
  refine ⟨?_, fun config flags ↦ ⟨?_, ?_, ?_⟩, ?_⟩
  · intro s changes m b
    apply read_foldl_eq_last _ (fun s : Settings ↦ (s.get m).bound b)
    intro s c
    exact Change.bound_apply m b s c
  · rw [← validate_layered_eq_ok_iff]
    constructor
    · rintro ⟨s, hs⟩
      obtain ⟨rfl, hvalid⟩ := (resolve_eq_ok_iff config flags s).mp hs
      exact hvalid
    · intro hvalid
      exact ⟨layered config flags, (resolve_eq_ok_iff config flags _).mpr ⟨rfl, hvalid⟩⟩
  · intro s hs
    obtain ⟨rfl, hvalid⟩ := (resolve_eq_ok_iff config flags s).mp hs
    exact ⟨bound_layered config flags, exists_engine hvalid⟩
  · intro e he
    exact exists_of_validate_layered_eq_error ((resolve_eq_error_iff config flags e).mp he)
  · intro ws r e
    exact Workspace.exists_of_lint_eq_thresholds

/-- A configuration that warns above the built-in failing bound is refused, although a later metric is
wrong as well; a flag that raises the failing bound makes it fit. -/
theorem Settings.last_layer_decides_raised_bound :
    let config : Config := ⟨[(.cyclo, ⟨some 20, none⟩)], none, []⟩
    let raised : Layer := [(.cyclo, ⟨none, some 30⟩)]
    let negative : Layer := [(.fanOut, ⟨some (-1), none⟩)]
    (∃ s, resolve config.thresholds raised = .ok s ∧ (s.get .cyclo).bound .warn = 20 ∧
      (s.get .cyclo).bound .fail = 30 ∧ (s.get .params).bound .fail = 6 ∧
      ∃ engine, Engine.ofSettings s = .ok engine ∧ engine.settings = s) ∧
    ∃ e, resolve config.thresholds negative = .error e ∧ e.metric = "cyclo" ∧
      ∃ before m after, [.nestDepth, .cyclo, .params, .fanOut] = before ++ m :: after ∧
        e.metric = m.name ∧ ¬ Fits config negative m ∧ ∀ m' ∈ before, Fits config negative m' := by
  intro config raised negative
  obtain ⟨hiff, hok, -⟩ := last_layer_decides.2.1 config raised
  obtain ⟨s, hs⟩ := hiff.mpr fun m ↦ by cases m <;> decide
  obtain ⟨hbound, hengine⟩ := hok s hs
  refine ⟨⟨s, hs, ?_, ?_, ?_, hengine⟩, ?_⟩
  · rw [hbound]
    decide
  · rw [hbound]
    decide
  · rw [hbound]
    decide
  · exact ⟨⟨"cyclo", .inverted 20 14⟩, rfl, rfl, (last_layer_decides.2.1 config negative).2.2 _ rfl⟩

end GoComplexity
