import Fleet.Cluster.Task
import Fleet.Cluster.Worker
import Fleet.Fault

/-!
The number of workers that the backlog and the use of memory call for, without any knowledge of how
long tasks last.
-/
namespace Fleet.QueueEstimate

/-- Twice the observed workers under memory pressure, and else none. -/
def memoryTarget (workers : List Worker) (observed : Nat) : Except Fault Nat :=
  if underPressure workers then Word.mul 2 observed else .ok 0

/-- The tasks that come free when those of the list are done, each counted as often as it is
named. -/
def upcoming (tasks : List Task) : Nat := (tasks.flatMap Task.dependents).length

/-- One worker for every unblocked task, and twice as many when more tasks will come free than two
for every worker. -/
def backlogTarget (tasks : List Task) (workers : Nat) : Nat :=
  let unblocked := tasks.filter Task.isUnblocked
  if 2 * workers < upcoming unblocked then unblocked.length * 2 else unblocked.length

/-- What the backlog or the memory calls for, whichever is more. -/
def target (tasks : List Task) (workers : List Worker) (observed : Nat) : Except Fault Nat := do
  return max (backlogTarget tasks workers.length) (← memoryTarget workers observed)

end Fleet.QueueEstimate
