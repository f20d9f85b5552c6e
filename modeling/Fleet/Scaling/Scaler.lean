import Fleet.Scaling.Estimator
import Fleet.Scaling.Executor
import Fleet.Scaling.History

/-!
The scaling of one cluster, tick by tick. A tick estimates a target, waits until the plan has been
requested, decides, and carries the decision out. What a tick does is a program of remote calls;
nothing but the scaler itself keeps state between ticks.
-/
namespace Fleet

inductive Outcome where
  /-- The cluster is not running, and nothing was looked at. -/
  | skipped
  | unchanged
  | scaledUp (n : Nat)
  | scaledDown (workers : IdSet)
  deriving DecidableEq

structure Scaler where
  policy : Policy
  estimator : Estimator
  advisor : Advisor
  history : History

namespace Scaler

def ofPolicy (p : Policy) : Scaler where
  policy := p
  estimator := .ofPolicy p
  advisor := .ofPolicy p
  history := .empty History.standardCapacity

def ofSettings (s : Settings) : Except SettingsError Scaler := s.toPolicy.map ofPolicy

def debounce (s : Scaler) : Debounce := s.advisor.debounce

/-- Notes a decision that changes something. -/
def note (s : Scaler) (decision : Recommendation) : Scaler :=
  if decision = .same then s else { s with history := s.history.record decision }

/-- The estimated target within the bounds of the policy. -/
def safeTarget (s : Scaler) : Exchange (Except TickError Nat) := do
  match ← s.estimator.target with
  | .error e => return .error (.estimate e)
  | .ok raw => return .ok (← Exchange.check (s.policy.clamp raw))

/-- The three sets of workers once the plan has been requested. Reconciling is waited for only
where the sizes of plan and request differ. -/
def settledRoster (s : Scaler) : Exchange (Except TickError Roster) := do
  let before ← Exchange.view
  if before.roster.isReconciled then return .ok before.roster
  else
    match ← Exchange.call (.reconcile s.policy.reconcileTimeout) with
    | .error e => return .error (.reconcile e)
    | .ok .timedOut => return .error (.reconcileTimeout s.policy.reconcileTimeout)
    | .ok .finished => return .ok (← Exchange.view).roster

def execute : Recommendation → Exchange (Except TickError Outcome)
  | .same => return .ok .unchanged
  | .up n => do return (← Executor.scaleUp n).map fun _ => .scaledUp n
  | .down workers => do
    Executor.scaleDown workers
    return .ok (.scaledDown workers)

/-- Decides on a target and carries the decision out. -/
def act (s : Scaler) (target : Nat) (r : Roster) :
    Exchange (Scaler × Except TickError Outcome) := do
  let (advisor, decision) ← s.advisor.recommend target r
  let s := { s with advisor := advisor }
  match decision with
  | .error e => return (s, .error e)
  | .ok decision => return (s.note decision, ← execute decision)

/-- One tick: the scaler after it and what it did, or why it was broken off. -/
def tick (s : Scaler) : Exchange (Scaler × Except TickError Outcome) := do
  let view ← Exchange.view
  if view.status.isRunning then
    match ← s.safeTarget with
    | .error e => return (s, .error e)
    | .ok target =>
      match ← s.settledRoster with
      | .error e => return (s, .error e)
      | .ok roster => s.act target roster
  else return (s, .ok .skipped)

end Scaler

end Fleet
