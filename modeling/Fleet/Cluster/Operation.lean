import Fleet.Cluster.Scale

/-!
Everything that can be done to a cluster, as one type, and the states that are reached by doing it.
-/
namespace Fleet

inductive Operation where
  | addWorker (w : Worker)
  | setTasks (tasks : List Task)
  | setLoad (id : Id) (memoryUsed processing : Nat)
  | arriveAll
  | setStatus (status : Status)
  | scale (n : Nat)
  | scaleDown (ids : List Id)
  | reconcile
  | retire (r : Retirement)
  deriving DecidableEq

namespace Operation

inductive Answer where
  | done
  /-- So many workers have connected. -/
  | arrived (n : Nat)
  | refused (e : RemoteError)
  deriving DecidableEq

/-- Carries a change out; a refused one changes nothing. -/
def apply (c : Cluster) : Operation → Cluster × Answer
  | addWorker w => (c.addWorker w, .done)
  | setTasks tasks => (c.setTasks tasks, .done)
  | setLoad id memoryUsed processing =>
    match c.setLoad id memoryUsed processing with
    | .ok c' => (c', .done)
    | .error e => (c, .refused e)
  | arriveAll => (c.arriveAll, .arrived c.awaited.size)
  | setStatus status => (c.setStatus status, .done)
  | scale n =>
    match c.scale n with
    | .ok c' => (c', .done)
    | .error e => (c, .refused e)
  | scaleDown ids => (c.scaleDown ids, .done)
  | reconcile => (c.reconcile, .done)
  | retire r => (c.retire r, .done)

def applyAll (c : Cluster) (ops : List Operation) : Cluster :=
  ops.foldl (fun c op => (op.apply c).1) c

end Operation

/-- The states that a new cluster can come to. -/
def Cluster.Reachable (c : Cluster) : Prop :=
  ∃ name memoryLimit ops, c = Operation.applyAll (Cluster.create name memoryLimit) ops

end Fleet
