import Fleet.Cluster.Basic
import Fleet.Duration.Basic
import Fleet.Fault

/-!
The scheduler's own estimate of how many workers it needs: enough to work off the unblocked tasks
within a given time, and twice the connected ones under memory pressure.
-/
namespace Fleet.Cluster

/-- The milliseconds that a task is taken to last when nothing is known of it. -/
def assumedMillis : Nat := 500

def backlog (c : Cluster) : List Task := c.tasks.filter Task.isUnblocked

/-- The milliseconds in which the backlog is to be worked off: at least one, cut off to a word. -/
def drainWindow (d : Duration) : Nat := max d.millis 1 % Word.limit

/-- As many workers as windows fit into the backlog's length, but no more than it has tasks. -/
def workersForBacklog (c : Cluster) (d : Duration) : Except Fault Nat := do
  let total ← Word.sum Word.limit (c.backlog.map fun t => t.expectedMillis.getD assumedMillis)
  let needed ← Word.divUp total (drainWindow d)
  return min needed c.backlog.length

/-- Twice the connected workers under memory pressure, and else none. -/
def workersForMemory (c : Cluster) : Nat :=
  if underPressure c.workers.values then 2 * c.workers.size else 0

/-- The number of workers that work off the backlog within `d`. -/
def drainEstimate (c : Cluster) (d : Duration) : Except Fault Nat := do
  return max (← c.workersForBacklog d) c.workersForMemory

end Fleet.Cluster
