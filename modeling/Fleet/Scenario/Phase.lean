import Fleet.Cluster.Basic

/-!
Phases: stretches of ticks under constant load, and the load put on a cluster. The tasks are spread
over the workers so that the shares differ by one at most.
-/
namespace Fleet

/-- A stretch of ticks with the same tasks and the same use of memory. -/
structure Phase where
  ticks : Nat
  tasks : Nat
  /-- How many tasks need each of the tasks. -/
  dependents : Nat
  /-- The expected length of each task in milliseconds. -/
  taskMillis : Option Nat
  /-- The part of its memory limit that every worker uses. -/
  memoryFraction : Float

namespace Phase

/-- A phase of ten ticks without load. -/
def standard : Phase := ⟨10, 0, 0, none, 0⟩

def task (p : Phase) (i : Nat) : Task where
  key := "task-" ++ toString i
  state := .processing
  dependents := (List.range p.dependents).map fun d =>
    "task-" ++ toString i ++ "-dep-" ++ toString d
  expectedMillis := p.taskMillis

def taskList (p : Phase) : List Task := (List.range p.tasks).map p.task

/-- The bytes that a worker uses: whole bytes, no less than none and no more than a word holds. -/
def memoryUsed (p : Phase) (memoryLimit : Nat) : Nat :=
  ((UInt64.ofNat memoryLimit).toFloat * p.memoryFraction).toUInt64.toNat

/-- The share of the worker at place `i` of `count`; the first ones take what is left over. -/
def share (tasks count i : Nat) : Nat := tasks / count + if i < tasks % count then 1 else 0

/-- Puts the load of the phase on a cluster: its tasks, and a share of them for every connected
worker. -/
def apply (p : Phase) (c : Cluster) (memoryLimit : Nat) : Except RemoteError Cluster :=
  let workers := c.observed.toList
  workers.zipIdx.foldlM
    (fun c (id, i) => c.setLoad id (p.memoryUsed memoryLimit) (share p.tasks workers.length i))
    (c.setTasks p.taskList)

theorem share_le_share_add_one (tasks count i j : Nat) :
    share tasks count i ≤ share tasks count j + 1 := by
  unfold share; split <;> split <;> omega

end Phase

end Fleet
