import Fleet.Remote.Exchange
import Fleet.Scaling.Debounce
import Fleet.Scaling.Recommendation
import Fleet.Scaling.Settings

/-!
Decisions: a target above the plan is followed at once, and one below it is followed worker by
worker, each after it has been a candidate for long enough.
-/
namespace Fleet

inductive CandidateSource where
  /-- The workers that have not arrived go first, and the scheduler is asked for the rest. -/
  | pendingFirst
  /-- The scheduler is asked for all of them. -/
  | scheduler
  deriving DecidableEq

def Strategy.source : Strategy → CandidateSource
  | duration => .pendingFirst
  | queue => .scheduler

inductive TickError where
  | estimate (e : RemoteError)
  | reconcile (e : RemoteError)
  | reconcileTimeout (limit : Duration)
  | candidates (e : RemoteError)
  | scaleUp (n : Nat) (e : RemoteError)
  deriving DecidableEq

def TickError.message : TickError → String
  | estimate e => "target estimation failed: " ++ e.message
  | reconcile e => "reconciliation failed: " ++ e.message
  | reconcileTimeout limit => "reconciliation did not finish within " ++ limit.text
  | candidates e => "querying close candidates failed: " ++ e.message
  | scaleUp n e => "scale up to " ++ toString n ++ " workers failed: " ++ e.message

/-- What it takes to decide: the source of candidates, the query for them up to its target, and the
counts of past proposals. -/
structure Advisor where
  source : CandidateSource
  query : CloseQuery
  debounce : Debounce

namespace Advisor

def ofPolicy (p : Policy) : Advisor where
  source := p.strategy.source
  query := { CloseQuery.byName 0 with key := p.workerKey, extra := p.closeOptions }
  debounce := .create p.waitCount

/-- The workers that would be let go without asking the scheduler. -/
def pendingShare (a : Advisor) (target : Nat) (r : Roster) : IdSet :=
  match a.source with
  | .pendingFirst => r.pending.take (r.plan.size - target)
  | .scheduler => ∅

/-- Whether the scheduler has to be asked for more. -/
def asksScheduler (a : Advisor) (target : Nat) (r : Roster) : Bool :=
  match a.source with
  | .pendingFirst => target < r.plan.size - (a.pendingShare target r).size
  | .scheduler => true

def candidates (a : Advisor) (target : Nat) (r : Roster) :
    Exchange (Except RemoteError IdSet) :=
  let pending := a.pendingShare target r
  if a.asksScheduler target r then do
    match ← Exchange.call (.closeCandidates { a.query with target := target }) with
    | .ok ids => return .ok (pending.union (.ofList ids))
    | .error e => return .error e
  else return .ok pending

def conclude (a : Advisor) (proposed : IdSet) : Advisor × Recommendation :=
  let due := a.debounce.due proposed
  ({ a with debounce := a.debounce.observe proposed }, if due.isEmpty then .same else .down due)

/-- Decides on a target for a cluster whose plan has been requested. A target that is not below the
plan ends all counts, and a scheduler that fails leaves them. -/
def recommend (a : Advisor) (target : Nat) (r : Roster) :
    Exchange (Advisor × Except TickError Recommendation) :=
  if target = r.plan.size then
    return ({ a with debounce := a.debounce.clear }, .ok .same)
  else if r.plan.size < target then
    return ({ a with debounce := a.debounce.clear }, .ok (.up target))
  else do
    match ← a.candidates target r with
    | .ok proposed =>
      let (a, decision) := a.conclude proposed
      return (a, .ok decision)
    | .error e => return (a, .error (.candidates e))

end Advisor

end Fleet
