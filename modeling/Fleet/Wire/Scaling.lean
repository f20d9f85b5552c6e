import Fleet.Scaling.Advisor
import Fleet.Scaling.Recommendation
import Fleet.Scaling.Settings
import Fleet.Wire.Cluster

/-!
The wire forms of decisions and settings.
-/
namespace Fleet

namespace Recommendation

def encode : Recommendation → Json
  | same => .obj [("status", .str "same")]
  | up n => .obj [("n", .ofNat n), ("status", .str "up")]
  | down workers => .obj [("status", .str "down"), ("workers", workers.encode)]

/-- The kind of a decision: a field of the object, or the first item of a list. -/
def kind? : Json → Option String
  | .arr items => items.head?.bind Json.str?
  | v => v.required "status" Json.str?

def decode? (v : Json) : Option Recommendation := do
  match ← kind? v with
  | "same" => (v.record? .wire ["status"]).map fun _ => same
  | "up" =>
    let v ← v.record? .wire ["status", "n"]
    return up (← v.required "n" (Json.nat? Word.limit))
  | "down" =>
    let v ← v.record? .wire ["status", "workers"]
    return down (← v.required "workers" IdSet.decode?)
  | _ => none

end Recommendation

namespace Strategy

def encode (s : Strategy) : Json := .str s.name

def decodeIn? (form : Json.Form) (v : Json) : Option Strategy := do
  match ← v.case? form with
  | "duration" => some duration
  | "queue" => some queue
  | _ => none

def decode? (v : Json) : Option Strategy := decodeIn? .wire v

end Strategy

namespace Settings

/-- A maximum and a worker key are left out when there are none. -/
def encode (s : Settings) : Json := .obj (
  [("close_options", .ofDict s.closeOptions), ("interval", .str s.interval)] ++
  (s.maximum.toList.map fun n => ("maximum", .ofNat n)) ++
  [("minimum", .ofNat s.minimum),
    ("reconcile_timeout", .str s.reconcileTimeout),
    ("strategy", s.strategy.encode),
    ("target_duration", .str s.targetDuration),
    ("wait_count", .ofNat s.waitCount)] ++
  (s.workerKey.toList.map fun k => ("worker_key", k.encode)))

def fieldNames : List String :=
  ["interval", "minimum", "maximum", "wait_count", "target_duration", "reconcile_timeout",
    "strategy", "worker_key", "close_options"]

/-- Every field may be left out. -/
def decodeIn? (form : Json.Form) (v : Json) : Option Settings := do
  let v ← v.record? form fieldNames
  return {
    interval := ← v.optional "interval" standard.interval Json.str?
    minimum := ← v.optional "minimum" standard.minimum (Json.nat? Word.limit)
    maximum := ← v.optional "maximum" standard.maximum (Json.nullable? (Json.nat? Word.limit))
    waitCount := ← v.optional "wait_count" standard.waitCount (Json.nat? Word.shortLimit)
    targetDuration := ← v.optional "target_duration" standard.targetDuration Json.str?
    reconcileTimeout := ← v.optional "reconcile_timeout" standard.reconcileTimeout Json.str?
    strategy := ← v.optional "strategy" standard.strategy (Strategy.decodeIn? form)
    workerKey :=
      ← v.optional "worker_key" standard.workerKey (Json.nullable? (GroupKey.decodeIn? form))
    closeOptions := ← v.optional "close_options" standard.closeOptions Json.free? }

def decode? (v : Json) : Option Settings := decodeIn? .wire v

end Settings

end Fleet
