import Fleet.Dict
import Fleet.Total

/-!
Workers as the scheduler reports them, and the groups they are retired in.
-/
namespace Fleet

/-- What is known of one connected worker. Memory is in bytes; a limit of zero means no limit. -/
structure Worker where
  id : Id
  host : String
  launchBatch : Nat
  labels : Dict String
  memoryUsed : Nat
  memoryLimit : Nat
  processing : Nat
  deriving DecidableEq

namespace Worker

def idle (id : Id) (memoryUsed memoryLimit : Nat) : Worker where
  id := id
  host := ""
  launchBatch := 0
  labels := ∅
  memoryUsed := memoryUsed
  memoryLimit := memoryLimit
  processing := 0

def isIdle (w : Worker) : Bool := w.processing == 0

end Worker

/-- What the workers that must be retired together have in common. -/
inductive GroupKey where
  | host
  /-- The request that launched them. -/
  | launchBatch
  | label (name : String)
  deriving DecidableEq

/-- The group that a worker belongs to. Without a value for the label it is the group without a
name. -/
def GroupKey.groupOf (key : GroupKey) (w : Worker) : String :=
  match key with
  | host => w.host
  | launchBatch => toString w.launchBatch
  | label name => (w.labels.get? name).getD ""

/-- More than six tenths of the workers' memory is in use, all limits and all uses summed. -/
def underPressure (workers : List Worker) : Bool :=
  let limit := total (workers.map Worker.memoryLimit)
  let used := total (workers.map Worker.memoryUsed)
  0 < limit && limit * 6 < used * 10

end Fleet
