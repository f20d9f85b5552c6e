import Fleet.Cluster.Request
import Fleet.Cluster.Roster
import Fleet.Cluster.Task
import Fleet.Duration.Basic
import Fleet.Fault

/-!
The remote operations that scaling relies on, and what may come back from one.
-/
namespace Fleet

inductive Method where
  | scale
  | scaleDown
  | reconcile
  | drainEstimate
  | closeCandidates
  | retire
  | workers
  | tasks
  | estimate
  deriving DecidableEq

inductive Wait where
  | finished
  | timedOut
  deriving DecidableEq

def Method.Result : Method → Type
  | drainEstimate | estimate => Nat
  | closeCandidates => List Id
  | workers => List Worker
  | tasks => List Task
  | reconcile => Wait
  | scale | scaleDown | retire => Unit

inductive Call where
  | scale (n : Nat)
  | scaleDown (ids : List Id)
  /-- Wait until the requested workers are the planned ones, but no longer than `limit`. -/
  | reconcile (limit : Duration)
  /-- Ask how many workers work off the queue within `window`. -/
  | drainEstimate (window : Duration)
  | closeCandidates (query : CloseQuery)
  | retire (request : Retirement)
  | workers
  | tasks
  /-- Ask an estimator from outside for the number of workers. -/
  | estimate

namespace Call

def method : Call → Method
  | scale _ => .scale
  | scaleDown _ => .scaleDown
  | reconcile _ => .reconcile
  | drainEstimate _ => .drainEstimate
  | closeCandidates _ => .closeCandidates
  | retire _ => .retire
  | workers => .workers
  | tasks => .tasks
  | estimate => .estimate

abbrev Result (c : Call) : Type := c.method.Result

/-- How long the caller waits at most, and what it takes for the answer then. -/
def limit? : (c : Call) → Option (Duration × c.Result)
  | reconcile limit => some (limit, .timedOut)
  | _ => none

abbrev Reply (c : Call) : Type := Except RemoteError c.Result

end Call

end Fleet
