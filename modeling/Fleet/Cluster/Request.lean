import Fleet.Cluster.Worker
import Fleet.Json.Basic

/-!
Requests to a scheduler that carry more than a number, and the ways a remote call can fail.
-/
namespace Fleet

/-- Asks for workers whose removal would bring the number of workers down towards `target`. The
answer names them by the attribute `reportBy`; `extra` is handed on as it is. -/
structure CloseQuery where
  target : Nat
  key : Option GroupKey
  reportBy : String
  extra : Dict Json

/-- The query for single workers, reported by name. -/
def CloseQuery.byName (target : Nat) : CloseQuery := ⟨target, none, "name", ∅⟩

/-- Asks for workers to be drained, and then removed from the scheduler and shut down. -/
structure Retirement where
  names : List Id
  remove : Bool
  closeWorkers : Bool
  deriving DecidableEq

/-- Drains the named workers, removes them and shuts them down. -/
def Retirement.close (names : List Id) : Retirement := ⟨names, true, true⟩

inductive RemoteError where
  | rpc (text : String)
  | connection (text : String)
  | notRunning
  | unknownWorker (id : Id)
  deriving DecidableEq

def RemoteError.message : RemoteError → String
  | rpc text => "rpc failed: " ++ text
  | connection text => "connection lost: " ++ text
  | notRunning => "cluster is not running"
  | unknownWorker id => "unknown worker: " ++ id

end Fleet
