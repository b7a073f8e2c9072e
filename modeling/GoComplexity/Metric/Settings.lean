import GoComplexity.Metric.Thresholds

/-!
# Settings of a run

Settings hold the thresholds of every metric. They are built in layers: the built-in defaults, the
configuration file, the command line. A layer overrides only the bounds that it sets.
-/

namespace GoComplexity

structure Settings where
  nestDepth : Thresholds
  cyclo : Thresholds
  params : Thresholds
  fanOut : Thresholds
deriving DecidableEq

/-- The bounds that one layer sets for one metric. -/
structure PartialThresholds where
  warn : Option Int
  fail : Option Int
deriving DecidableEq

namespace PartialThresholds

def empty : PartialThresholds := ⟨none, none⟩

def isEmpty (p : PartialThresholds) : Bool := p.warn.isNone && p.fail.isNone

/-- The bounds after the layer: its own where it sets one. -/
def apply (p : PartialThresholds) (t : Thresholds) : Thresholds :=
  ⟨p.warn.getD t.warn, p.fail.getD t.fail⟩

end PartialThresholds

/-- A layer of settings: partial thresholds by metric. -/
abbrev Layer := List (Metric × PartialThresholds)

namespace Settings

def defaults : Settings :=
  ⟨Metric.nestDepth.defaults, Metric.cyclo.defaults, Metric.params.defaults, Metric.fanOut.defaults⟩

def get (s : Settings) : Metric → Thresholds
  | .nestDepth => s.nestDepth
  | .cyclo => s.cyclo
  | .params => s.params
  | .fanOut => s.fanOut

def set (s : Settings) (m : Metric) (t : Thresholds) : Settings :=
  match m with
  | .nestDepth => { s with nestDepth := t }
  | .cyclo => { s with cyclo := t }
  | .params => { s with params := t }
  | .fanOut => { s with fanOut := t }

/-- Sets the bounds of one metric that are present. -/
def applyPartial (s : Settings) (m : Metric) (p : PartialThresholds) : Settings :=
  s.set m (p.apply (s.get m))

def applyLayer (s : Settings) (layer : Layer) : Settings :=
  layer.foldl (fun s entry ↦ s.applyPartial entry.1 entry.2) s

/-- Checks every metric in report order and stops at the first refused one. -/
def validate (s : Settings) : Except ThresholdError Unit :=
  Metric.all.forM fun m ↦ (s.get m).validate m.name

/-- Defaults, then `config`, then `flags`, if the outcome is valid. -/
def resolve (config flags : Layer) : Except ThresholdError Settings := do
  let settings := (defaults.applyLayer config).applyLayer flags
  settings.validate
  return settings

end Settings

/-- What a run measures by: settings that were found valid. -/
structure Engine where
  settings : Settings
  valid : settings.validate = .ok ()

/-- Checks the settings, whatever checks they have been through. -/
def Engine.ofSettings (s : Settings) : Except ThresholdError Engine :=
  match h : s.validate with
  | .ok () => .ok ⟨s, h⟩
  | .error e => .error e

end GoComplexity
