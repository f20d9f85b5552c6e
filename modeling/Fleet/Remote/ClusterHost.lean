import Fleet.Cluster.CloseCandidates
import Fleet.Cluster.DrainEstimate
import Fleet.Cluster.Scale
import Fleet.Remote.Exchange

/-!
A cluster as the host of its own calls: every call is answered at once.
-/
namespace Fleet.Cluster

/-- Serves one call. A cluster knows no estimate from outside, so it has no connection for one. -/
def serve (call : Call) (c : Cluster) : Cluster × Except Fault call.Reply :=
  match call with
  | .scale n =>
    match c.scale n with
    | .ok c' => (c', .ok (.ok ()))
    | .error e => (c, .ok (.error e))
  | .scaleDown ids => (c.scaleDown ids, .ok (.ok ()))
  | .reconcile _ => (c.reconcile, .ok (.ok .finished))
  | .drainEstimate window => (c, (c.drainEstimate window).map .ok)
  | .closeCandidates query => (c, (c.closeCandidates query).map .ok)
  | .retire request => (c.retire request, .ok (.ok ()))
  | .workers => (c, .ok (.ok c.workers.values))
  | .tasks => (c, .ok (.ok c.tasks))
  | .estimate => (c, .ok (.error (.connection "no estimator")))

def host : Host Cluster := ⟨view, serve⟩

end Fleet.Cluster
