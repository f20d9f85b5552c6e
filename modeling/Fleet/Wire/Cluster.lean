import Fleet.Cluster.Request
import Fleet.Cluster.Roster
import Fleet.Cluster.Task
import Fleet.Fault
import Fleet.Wire.Decode

/-!
The wire forms of what a cluster and its scheduler tell each other.
-/
namespace Fleet

namespace Status

def encode : Status → Json
  | created => .str "created"
  | running => .str "running"
  | closing => .str "closing"
  | closed => .str "closed"

def decode? (v : Json) : Option Status := do
  match ← v.case? .wire with
  | "created" => some created
  | "running" => some running
  | "closing" => some closing
  | "closed" => some closed
  | _ => none

end Status

namespace TaskState

def encode : TaskState → Json
  | released => .str "released"
  | waiting => .str "waiting"
  | noWorker => .str "no-worker"
  | queued => .str "queued"
  | processing => .str "processing"
  | memory => .str "memory"
  | erred => .str "erred"
  | forgotten => .str "forgotten"

def decode? (v : Json) : Option TaskState := do
  match ← v.case? .wire with
  | "released" => some released
  | "waiting" => some waiting
  | "no-worker" => some noWorker
  | "queued" => some queued
  | "processing" => some processing
  | "memory" => some memory
  | "erred" => some erred
  | "forgotten" => some forgotten
  | _ => none

end TaskState

namespace GroupKey

def encode : GroupKey → Json
  | host => .str "host"
  | launchBatch => .str "launch_batch"
  | label name => .obj [("label", .str name)]

def decodeIn? (form : Json.Form) : Json → Option GroupKey
  | .obj [("label", v)] => v.str?.map label
  | v => do
    match ← v.case? form with
    | "host" => some host
    | "launch_batch" => some launchBatch
    | _ => none

def decode? (v : Json) : Option GroupKey := decodeIn? .wire v

end GroupKey

namespace Worker

def encode (w : Worker) : Json := .obj [
  ("host", .str w.host),
  ("id", .str w.id),
  ("labels", .ofDict (w.labels.mapValues .str)),
  ("launch_batch", .ofNat w.launchBatch),
  ("memory_limit", .ofNat w.memoryLimit),
  ("memory_used", .ofNat w.memoryUsed),
  ("processing", .ofNat w.processing)]

def fieldNames : List String :=
  ["id", "host", "launch_batch", "labels", "memory_used", "memory_limit", "processing"]

def decode? (v : Json) : Option Worker := do
  let v ← v.record? .wire fieldNames
  return {
    id := ← v.required "id" Json.str?
    host := ← v.optional "host" "" Json.str?
    launchBatch := ← v.optional "launch_batch" 0 (Json.nat? Word.limit)
    labels := ← v.optional "labels" ∅ (Json.dict? Json.str?)
    memoryUsed := ← v.required "memory_used" (Json.nat? Word.limit)
    memoryLimit := ← v.required "memory_limit" (Json.nat? Word.limit)
    processing := ← v.optional "processing" 0 (Json.nat? Word.limit) }

end Worker

namespace Task

def encode (t : Task) : Json := .obj [
  ("dependents", .ofStrings t.dependents),
  ("expected_duration_ms", .ofOption .ofNat t.expectedMillis),
  ("key", .str t.key),
  ("state", t.state.encode)]

def fieldNames : List String := ["key", "state", "dependents", "expected_duration_ms"]

def decode? (v : Json) : Option Task := do
  let v ← v.record? .wire fieldNames
  return {
    key := ← v.required "key" Json.str?
    state := ← v.required "state" TaskState.decode?
    dependents := ← v.optional "dependents" [] Json.strings?
    expectedMillis :=
      ← v.optional "expected_duration_ms" none (Json.nullable? (Json.nat? Word.limit)) }

end Task

namespace CloseQuery

def encode (q : CloseQuery) : Json := .obj [
  ("attribute", .str q.reportBy),
  ("extra", .ofDict q.extra),
  ("key", .ofOption GroupKey.encode q.key),
  ("target", .ofNat q.target)]

def fieldNames : List String := ["target", "key", "attribute", "extra"]

def decode? (v : Json) : Option CloseQuery := do
  let v ← v.record? .wire fieldNames
  return {
    target := ← v.required "target" (Json.nat? Word.limit)
    key := ← v.optional "key" none (Json.nullable? GroupKey.decode?)
    reportBy := ← v.required "attribute" Json.str?
    extra := ← v.optional "extra" ∅ Json.free? }

end CloseQuery

namespace Retirement

def encode (r : Retirement) : Json := .obj [
  ("close_workers", .bool r.closeWorkers),
  ("names", .ofStrings r.names),
  ("remove", .bool r.remove)]

def fieldNames : List String := ["names", "remove", "close_workers"]

def decode? (v : Json) : Option Retirement := do
  let v ← v.record? .wire fieldNames
  return {
    names := ← v.required "names" Json.strings?
    remove := ← v.required "remove" Json.bool?
    closeWorkers := ← v.required "close_workers" Json.bool? }

end Retirement

namespace IdSet

def encode (s : IdSet) : Json := .ofStrings s.toList

def decode? (v : Json) : Option IdSet := v.strings?.map .ofList

end IdSet

end Fleet
