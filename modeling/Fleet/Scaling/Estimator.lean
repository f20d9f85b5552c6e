import Fleet.Remote.Exchange
import Fleet.Scaling.QueueEstimate
import Fleet.Scaling.Settings

/-!
Estimators: how the number of workers that a cluster should have is found, before any bounds.
-/
namespace Fleet

inductive Estimator where
  /-- The scheduler is asked how many workers work off the queue within `window`. -/
  | drain (window : Duration)
  /-- The backlog and the use of memory are looked at. -/
  | queue
  | outside
  deriving DecidableEq

namespace Estimator

def ofPolicy (p : Policy) : Estimator :=
  match p.strategy with
  | .duration => drain p.targetDuration
  | .queue => queue

def name : Estimator → String
  | drain _ => "duration"
  | queue => "queue"
  | outside => "outside"

/-- The target that the backlog and the use of memory call for. -/
def queueTarget : Exchange (Except RemoteError Nat) := do
  match ← Exchange.call .tasks with
  | .error e => return .error e
  | .ok tasks =>
    match ← Exchange.call .workers with
    | .error e => return .error e
    | .ok workers =>
      let view ← Exchange.view
      return .ok (← Exchange.check (QueueEstimate.target tasks workers view.roster.observed.size))

def target : Estimator → Exchange (Except RemoteError Nat)
  | drain window => Exchange.call (.drainEstimate window)
  | queue => queueTarget
  | outside => Exchange.call .estimate

end Estimator

end Fleet
