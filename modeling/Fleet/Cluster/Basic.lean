import Fleet.Cluster.Request
import Fleet.Cluster.Roster
import Fleet.Cluster.Task

/-!
The state of a cluster and what changes it. A worker is first planned, then requested and then
observed: planning fills `plan`, reconciling takes the plan over into `requested`, and arriving
turns requested workers into connected ones. Beside each operation stands what it makes of the three
sets.
-/
namespace Fleet

/-- A cluster of workers. `workers` are the connected ones, and `batches` holds the number of the
launch that each known worker came from. -/
structure Cluster where
  name : String
  status : Status
  plan : IdSet
  requested : IdSet
  workers : Dict Worker
  batches : Dict Nat
  tasks : List Task
  nextId : Nat
  nextBatch : Nat
  memoryLimit : Nat
  /-- The workers that were drained and removed, in order. -/
  retired : List Id
  deriving DecidableEq

namespace Cluster

/-- A running cluster without workers. New workers get `memoryLimit` bytes. -/
def create (name : String) (memoryLimit : Nat) : Cluster where
  name := name
  status := .running
  plan := ∅
  requested := ∅
  workers := ∅
  batches := ∅
  tasks := []
  nextId := 0
  nextBatch := 0
  memoryLimit := memoryLimit
  retired := []

def observed (c : Cluster) : IdSet := c.workers.keys

def roster (c : Cluster) : Roster := ⟨c.plan, c.requested, c.observed⟩

def view (c : Cluster) : View := ⟨c.status, c.roster⟩

/-- Adds a worker that is planned, requested and connected at once. -/
def addWorker (c : Cluster) (w : Worker) : Cluster :=
  { c with
    plan := c.plan.insert w.id
    requested := c.requested.insert w.id
    batches := c.batches.insert w.id w.launchBatch
    workers := c.workers.insert w.id w }

def setTasks (c : Cluster) (tasks : List Task) : Cluster := { c with tasks := tasks }

def setStatus (c : Cluster) (status : Status) : Cluster := { c with status := status }

def setLoad (c : Cluster) (id : Id) (memoryUsed processing : Nat) : Except RemoteError Cluster :=
  if c.workers.contains id then
    .ok { c with workers := c.workers.modify id fun w =>
      { w with memoryUsed := memoryUsed, processing := processing } }
  else .error (.unknownWorker id)

def newcomer (c : Cluster) (id : Id) : Worker :=
  { Worker.idle id 0 c.memoryLimit with
    host := "127.0.0.1"
    launchBatch := (c.batches.get? id).getD 0 }

def awaited (c : Cluster) : IdSet := c.requested.diff c.observed

def arriveAll (c : Cluster) : Cluster :=
  { c with workers := c.awaited.toList.foldl (fun ws id => ws.insert id (c.newcomer id)) c.workers }

/-- Removes workers from every record but the list of retired ones. -/
def scaleDown (c : Cluster) (ids : List Id) : Cluster :=
  { c with
    plan := c.plan.eraseAll ids
    requested := c.requested.eraseAll ids
    workers := c.workers.eraseAll ids
    batches := c.batches.eraseAll ids }

/-- Cancels the requested workers that are not planned and requests the planned ones. -/
def reconcile (c : Cluster) : Cluster :=
  let cancelled := c.requested.diff c.plan
  { c with
    requested := (c.requested.diff cancelled).union c.plan
    workers := c.workers.eraseAll cancelled.toList
    batches := c.batches.eraseAll cancelled.toList }

/-- Drains one worker; it leaves the scheduler if it was connected. -/
def retireOne (c : Cluster) (id : Id) : Cluster :=
  if c.workers.contains id then
    { c with workers := c.workers.erase id, retired := c.retired ++ [id] }
  else c

def retire (c : Cluster) (r : Retirement) : Cluster :=
  if r.remove then r.names.foldl retireOne c else c

/-! ### The three sets -/

theorem mem_observed {c : Cluster} {x : Id} : x ∈ c.observed ↔ (c.workers.get? x).isSome :=
  Dict.mem_keys

theorem get?_foldl_insert {β : Type} (f : Id → β) (ids : List Id) (d : Dict β) (x : Id) :
    (ids.foldl (fun d id => d.insert id (f id)) d).get? x =
      if x ∈ ids then some (f x) else d.get? x := by
  induction ids generalizing d with
  | nil => simp
  | cons y rest ih =>
    simp only [List.foldl_cons, ih, Dict.get?_insert, List.mem_cons]
    grind

theorem get?_workers_arriveAll (c : Cluster) (x : Id) :
    c.arriveAll.workers.get? x =
      if x ∈ c.awaited then some (c.newcomer x) else c.workers.get? x := by
  simp only [arriveAll, get?_foldl_insert]
  rfl

@[simp] theorem mem_observed_arriveAll {c : Cluster} {x : Id} :
    x ∈ c.arriveAll.observed ↔ x ∈ c.requested ∨ x ∈ c.observed := by
  rw [mem_observed, get?_workers_arriveAll]
  by_cases h : x ∈ c.observed
  · simp [awaited, h, mem_observed.1 h]
  · have missing : c.workers.get? x = none := by
      rw [mem_observed] at h
      simpa using h
    by_cases r : x ∈ c.requested <;> simp [awaited, h, r, missing]

@[simp] theorem requested_reconcile (c : Cluster) : c.reconcile.requested = c.plan := by
  refine IdSet.ext_mem fun x => ?_
  by_cases r : x ∈ c.requested <;> by_cases p : x ∈ c.plan <;> simp [reconcile, r, p]

@[simp] theorem plan_reconcile (c : Cluster) : c.reconcile.plan = c.plan := rfl

@[simp] theorem mem_observed_reconcile {c : Cluster} {x : Id} :
    x ∈ c.reconcile.observed ↔ x ∈ c.observed ∧ (x ∈ c.requested → x ∈ c.plan) := by
  have cancelled : x ∈ (c.requested.diff c.plan).toList ↔ x ∈ c.requested ∧ ¬ x ∈ c.plan :=
    IdSet.mem_diff
  rw [mem_observed, mem_observed, reconcile, Dict.get?_eraseAll]
  by_cases r : x ∈ c.requested <;> by_cases p : x ∈ c.plan <;> simp [cancelled, r, p]

theorem mem_observed_scaleDown {c : Cluster} {ids : List Id} {x : Id} :
    x ∈ (c.scaleDown ids).observed ↔ x ∈ c.observed ∧ x ∉ ids := by
  rw [mem_observed, mem_observed, scaleDown, Dict.get?_eraseAll]
  by_cases h : x ∈ ids <;> simp [h]

end Cluster

end Fleet
