import Fleet.Scenario.Simulation
import Fleet.Wire.Scaling

/-!
The wire forms of phases, scenarios and deployments.
-/
namespace Fleet

namespace Phase

/-- The length of the tasks is left out when it is not known. -/
def encode (p : Phase) : Json := .obj (
  [("dependents", .ofNat p.dependents), ("memory_fraction", .float p.memoryFraction)] ++
  (p.taskMillis.toList.map fun n => ("task_ms", .ofNat n)) ++
  [("tasks", .ofNat p.tasks), ("ticks", .ofNat p.ticks)])

def fieldNames : List String := ["ticks", "tasks", "dependents", "task_ms", "memory_fraction"]

/-- Every field may be left out. -/
def decodeIn? (form : Json.Form) (v : Json) : Option Phase := do
  let v ← v.record? form fieldNames
  return {
    ticks := ← v.optional "ticks" standard.ticks (Json.nat? Word.shortLimit)
    tasks := ← v.optional "tasks" standard.tasks (Json.nat? Word.limit)
    dependents := ← v.optional "dependents" standard.dependents (Json.nat? Word.limit)
    taskMillis := ← v.optional "task_ms" standard.taskMillis (Json.nullable? (Json.nat? Word.limit))
    memoryFraction := ← v.optional "memory_fraction" standard.memoryFraction Json.float? }

def decode? (v : Json) : Option Phase := decodeIn? .wire v

end Phase

namespace Scenario

def encode (s : Scenario) : Json := .obj [
  ("memory_limit", .ofNat s.memoryLimit),
  ("name", .str s.name),
  ("phases", .arr (s.phases.map Phase.encode)),
  ("workers", .ofNat s.workers)]

def fieldNames : List String := ["name", "workers", "memory_limit", "phases"]

/-- Every field may be left out. -/
def decodeIn? (form : Json.Form) (v : Json) : Option Scenario := do
  let v ← v.record? form fieldNames
  return {
    name := ← v.optional "name" standard.name Json.str?
    workers := ← v.optional "workers" standard.workers (Json.nat? Word.limit)
    memoryLimit := ← v.optional "memory_limit" standard.memoryLimit (Json.nat? Word.limit)
    phases := ← v.optional "phases" standard.phases (Json.list? (Phase.decodeIn? form)) }

def decode? (v : Json) : Option Scenario := decodeIn? .wire v

end Scenario

namespace Deployment

def encode (d : Deployment) : Json := .obj [
  ("adaptive", d.settings.encode),
  ("scenario", d.scenario.encode)]

def fieldNames : List String := ["adaptive", "scenario"]

/-- Each part may be left out. -/
def decodeIn? (form : Json.Form) (v : Json) : Option Deployment := do
  let v ← v.record? form fieldNames
  return {
    settings := ← v.optional "adaptive" Settings.standard (Settings.decodeIn? form)
    scenario := ← v.optional "scenario" Scenario.standard (Scenario.decodeIn? form) }

def decode? (v : Json) : Option Deployment := decodeIn? .wire v

end Deployment

end Fleet
