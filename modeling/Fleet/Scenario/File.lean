import Fleet.Toml.Reader
import Fleet.Toml.Writer
import Fleet.Wire.Scenario

/-!
Deployments as settings files.
-/
namespace Fleet

mutual

/-- The value with null in place of every fraction that is not finite. -/
def Json.finite : Json → Json
  | .float x => if x.isFinite then .float x else .null
  | .arr items => .arr (finiteItems items)
  | .obj fields => .obj (finiteFields fields)
  | v => v

def finiteItems : List Json → List Json
  | [] => []
  | v :: rest => v.finite :: finiteItems rest

def finiteFields : List (String × Json) → List (String × Json)
  | [] => []
  | (name, v) :: rest => (name, v.finite) :: finiteFields rest

end

namespace Deployment

/-- Reads a settings file. Free-form values keep finite numbers only. -/
def ofFile? (text : String) : Option Deployment := do
  let d ← decodeIn? .file (← Toml.ofText? text)
  return { d with settings :=
    { d.settings with closeOptions := d.settings.closeOptions.mapValues Json.finite } }

def settingsFields (s : Settings) : List (String × Json) :=
  [("interval", .str s.interval), ("minimum", .ofNat s.minimum)] ++
  (s.maximum.toList.map fun n => ("maximum", .ofNat n)) ++
  [("wait_count", .ofNat s.waitCount),
    ("target_duration", .str s.targetDuration),
    ("reconcile_timeout", .str s.reconcileTimeout),
    ("strategy", s.strategy.encode)] ++
  (s.workerKey.toList.map fun k => ("worker_key", k.encode)) ++
  [("close_options", .ofDict s.closeOptions)]

def phaseFields (p : Phase) : List (String × Json) :=
  [("ticks", .ofNat p.ticks), ("tasks", .ofNat p.tasks), ("dependents", .ofNat p.dependents)] ++
  (p.taskMillis.toList.map fun n => ("task_ms", .ofNat n)) ++
  [("memory_fraction", .float p.memoryFraction)]

def scenarioFields (s : Scenario) : List (String × Json) :=
  [("name", .str s.name), ("workers", .ofNat s.workers), ("memory_limit", .ofNat s.memoryLimit),
    ("phases", .arr (s.phases.map fun p => .obj (phaseFields p)))]

def file (d : Deployment) : Except Toml.WriteError String :=
  Toml.write [("adaptive", .obj (settingsFields d.settings)),
    ("scenario", .obj (scenarioFields d.scenario))]

end Deployment

end Fleet
